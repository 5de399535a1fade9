/-
The sending side of a socket under any interleaving.

Threads call `Write` and worker threads run `OnWriteCallback`.  The part of
each that runs under the lock is one step; the `WSASend` that follows outside
the lock is a step of its own, so calls of other threads may come in between.
`Write(char *, DWORD)` passes on one chunk at a time; `Write(CIOBuffer *)` is
the same with one chunk.  `passed`, `written`, `completed` and `handed` are history
variables: what the calls were given, what they put in under the lock, what has left
the queue, and what `WSASend` was given.
-/

import AuthServer.Lib.EventRuns
import AuthServer.OutputQueue

set_option autoImplicit false

namespace AuthServer

/-- What a thread that has left the lock is about to send: its own `pBuffer`,
or whatever `m_pFirstBuf` then points to. -/
inductive SendTarget where
  | pBuffer (object : Nat)
  | firstBuf
  deriving DecidableEq, Repr

/-- Where a thread stands: the bytes still to be passed on, and its send. -/
structure WriteCall where
  rest : List UInt8
  toSend : Option SendTarget
  deriving DecidableEq, Repr

def WriteCall.idle : WriteCall := ⟨[], none⟩

/-- Bytes and the thread they come from. -/
structure Portion where
  thread : Nat
  bytes : List UInt8

def allBytes (portions : List Portion) : List UInt8 := portions.flatMap Portion.bytes

def portionsOf (thread : Nat) (portions : List Portion) : List (List UInt8) :=
  (portions.filter fun portion => portion.thread = thread).map Portion.bytes

/-- The buffers that `Write(char *, DWORD)` makes. -/
def chunks : List UInt8 → List (List UInt8)
  | [] => []
  | byte :: more =>
      (byte :: more).take bufferSize :: chunks ((byte :: more).drop bufferSize)
termination_by bytes => bytes.length
decreasing_by
  rw [List.length_drop, List.length_cons]
  unfold bufferSize
  omega

structure WriteSide where
  output : OutputQueue
  handleOpen : Bool
  calls : Nat → WriteCall
  outstanding : List OutBuffer
  nextObject : Nat
  passed : List Portion
  written : List Portion
  completed : List UInt8
  handed : List UInt8

inductive WriteEvent where
  | call (thread : Nat) (buf : List UInt8)
  | write (thread : Nat)
  | send (thread : Nat) (accepted : Bool)
  | sent (thread : Nat) (dwTransferred : Nat)
  | sendFailed
  | closeSocket

namespace WriteSide

def start : WriteSide where
  output := OutputQueue.empty
  handleOpen := true
  calls := fun _ => .idle
  outstanding := []
  nextObject := 0
  passed := []
  written := []
  completed := []
  handed := []

def setCall (calls : Nat → WriteCall) (thread : Nat) (call : WriteCall) :
    Nat → WriteCall :=
  fun other => if other = thread then call else calls other

/-- A fresh buffer with the next chunk, put in under the lock. -/
def writeChunk (side : WriteSide) (thread : Nat) (rest : List UInt8) : WriteSide :=
  let buf : OutBuffer :=
    { object := side.nextObject
      bytes := rest.take bufferSize
      within := List.length_take_le bufferSize rest }
  let queued := side.output.enqueue buf
  let toSend : Option SendTarget :=
    match queued.2 with
    | .started => some (.pBuffer buf.object)
    | .coalesced => none
    | .appended => none
  { side with
    output := queued.1
    calls := setCall side.calls thread ⟨rest.drop bufferSize, toSend⟩
    nextObject := side.nextObject + 1 }

/-- The buffer a send reads; a buffer that is no longer queued was freed. -/
def aim (side : WriteSide) : SendTarget → Option OutBuffer
  | .pBuffer object => side.output.nodes.find? fun node => node.object = object
  | .firstBuf => side.output.nodes.head?

/-- `WSASend`: accepted when it succeeds or is pending. -/
def wsaSend (side : WriteSide) (thread : Nat) (accepted : Bool) (buf : OutBuffer) :
    WriteSide :=
  { side with
    calls := setCall side.calls thread { side.calls thread with toSend := none }
    outstanding := if accepted then buf :: side.outstanding else side.outstanding
    handed := side.handed ++ buf.bytes }

/-- `OnWriteCallback` up to the send; the first buffer leaves the queue only
when the counts agree. -/
def onWriteCallback (side : WriteSide) (thread dwTransferred : Nat) : Option WriteSide :=
  (side.output.dequeue dwTransferred).map fun dequeued =>
    let done := { side with output := dequeued.1, outstanding := side.outstanding.tail }
    let popped := (side.output.nodes.head?.map OutBuffer.bytes).getD []
    match dequeued.2 with
    | .differentCount => done
    | .emptied => { done with completed := side.completed ++ popped }
    | .sendNext =>
        { done with
          completed := side.completed ++ popped
          calls := setCall side.calls thread ⟨[], some .firstBuf⟩ }

def step (side : WriteSide) : WriteEvent → Option WriteSide
  | .call thread buf =>
      if side.calls thread = .idle then
        some { side with
          calls := setCall side.calls thread ⟨buf, none⟩
          passed := side.passed ++ [⟨thread, buf⟩] }
      else none
  | .write thread =>
      match (side.calls thread).toSend, (side.calls thread).rest with
      | none, byte :: more =>
          some { side.writeChunk thread (byte :: more) with
            written := side.written ++ [⟨thread, (byte :: more).take bufferSize⟩] }
      | _, _ => none
  | .send thread accepted =>
      match (side.calls thread).toSend with
      | none => none
      | some target => (side.aim target).map (side.wsaSend thread accepted)
  | .sent thread dwTransferred =>
      if side.outstanding = [] ∨ side.calls thread ≠ .idle then none
      else side.onWriteCallback thread dwTransferred
  | .sendFailed =>
      if side.outstanding = [] then none
      else some { side with outstanding := side.outstanding.tail, handleOpen := false }
  | .closeSocket => some { side with handleOpen := false }

def machine : EventRuns.Machine WriteSide WriteEvent := ⟨step⟩

/-- Thread by thread, what was written are the chunks of what was passed, but for the rest
of a call in progress. -/
def PassedOn (side : WriteSide) : Prop :=
  ∀ thread, (portionsOf thread side.passed).flatMap chunks =
    portionsOf thread side.written ++ chunks (side.calls thread).rest

/-- What the bytes of a connection may look like at any moment. -/
structure Safe (side : WriteSide) : Prop where
  prefixHanded : side.handed <+: allBytes side.written
  passedOn : side.PassedOn
  everyByte : ∀ thread, (portionsOf thread side.passed).flatten =
    (portionsOf thread side.written).flatten ++ (side.calls thread).rest
  nothingLost : allBytes side.written = side.completed ++ side.output.bytes
  completedHanded : side.completed <+: side.handed
  single : side.outstanding.length ≤ 1
  untouched : ∀ buf ∈ side.outstanding, side.output.nodes.head? = some buf
  counted : side.output.Counted
  exactBelow : side.output.size < 2 ^ 31 →
    side.output.pendingWrite.toInt = side.output.size

def Quiescent (side : WriteSide) : Prop := ∀ thread, side.calls thread = .idle

def Pushed (side : WriteSide) : Prop :=
  side.handleOpen = true → side.Quiescent → side.output.nodes ≠ [] →
    ∃ first, side.output.nodes.head? = some first ∧ side.outstanding = [first]

/-! ### The phases of the queue -/

/-- Where the first buffer stands, and what has been handed over so far. -/
inductive Phase (side : WriteSide) : Prop where
  | empty (nodes : side.output.nodes = [])
      (nobody : ∀ thread, (side.calls thread).toSend = none)
      (none : side.outstanding = []) (handed : side.handed = side.completed)
  | armed (first : OutBuffer) (head : side.output.nodes.head? = some first)
      (thread : Nat) (target : SendTarget)
      (aims : (side.calls thread).toSend = some target)
      (hits : target = .firstBuf ∨ target = .pBuffer first.object)
      (others : ∀ other, other ≠ thread → (side.calls other).toSend = none)
      (none : side.outstanding = []) (handed : side.handed = side.completed)
  | inFlight (first : OutBuffer) (head : side.output.nodes.head? = some first)
      (nobody : ∀ thread, (side.calls thread).toSend = none)
      (sending : side.outstanding = [first])
      (handed : side.handed = side.completed ++ first.bytes)
  | stalled (first : OutBuffer) (head : side.output.nodes.head? = some first)
      (nobody : ∀ thread, (side.calls thread).toSend = none)
      (none : side.outstanding = [])
      (handed : side.handed = side.completed ++ first.bytes)

structure Invariant (side : WriteSide) : Prop where
  counted : side.output.Counted
  passedOn : side.PassedOn
  nothingLost : allBytes side.written = side.completed ++ side.output.bytes
  phase : side.Phase

/-! ### Portions and chunks -/

theorem chunks_flatten (bytes : List UInt8) : (chunks bytes).flatten = bytes := by
  induction bytes using chunks.induct with
  | case1 => rw [chunks, List.flatten_nil]
  | case2 byte more ih =>
      rw [chunks, List.flatten_cons, ih]
      exact List.take_append_drop bufferSize (byte :: more)

theorem chunks_flatMap (buffers : List (List UInt8)) :
    (buffers.flatMap chunks).flatten = buffers.flatten := by
  induction buffers with
  | nil => rfl
  | cons buffer rest ih =>
      rw [List.flatMap_cons, List.flatten_append, ih, chunks_flatten, List.flatten_cons]

theorem allBytes_append (portions : List Portion) (portion : Portion) :
    allBytes (portions ++ [portion]) = allBytes portions ++ portion.bytes := by
  unfold allBytes
  rw [List.flatMap_append, List.flatMap_cons, List.flatMap_nil, List.append_nil]

theorem portionsOf_own (thread : Nat) (portions : List Portion) (bytes : List UInt8) :
    portionsOf thread (portions ++ [⟨thread, bytes⟩]) = portionsOf thread portions ++ [bytes] := by
  unfold portionsOf
  rw [List.filter_append, List.map_append]
  simp only [List.filter_cons, decide_true, if_true, List.filter_nil, List.map_cons, List.map_nil]

theorem portionsOf_other (thread other : Nat) (portions : List Portion) (bytes : List UInt8)
    (differs : other ≠ thread) :
    portionsOf other (portions ++ [⟨thread, bytes⟩]) = portionsOf other portions := by
  unfold portionsOf
  rw [List.filter_append, List.filter_cons_of_neg, List.filter_nil, List.append_nil]
  exact fun same => differs (of_decide_eq_true same).symm

theorem PassedOn.everyByte {side : WriteSide} (passedOn : side.PassedOn) (thread : Nat) :
    (portionsOf thread side.passed).flatten =
      (portionsOf thread side.written).flatten ++ (side.calls thread).rest := by
  have joined := congrArg List.flatten (passedOn thread)
  rw [chunks_flatMap, List.flatten_append, chunks_flatten] at joined
  exact joined

/-! ### Calls and phases -/

theorem setCall_same (calls : Nat → WriteCall) (thread : Nat) (call : WriteCall) :
    setCall calls thread call thread = call := if_pos rfl

theorem setCall_other (calls : Nat → WriteCall) (thread other : Nat) (call : WriteCall)
    (differs : other ≠ thread) : setCall calls thread call other = calls other :=
  if_neg differs

theorem setCall_nobody (calls : Nat → WriteCall) (thread : Nat) (call : WriteCall)
    (nothing : call.toSend = none)
    (others : ∀ other, other ≠ thread → (calls other).toSend = none) :
    ∀ other, (setCall calls thread call other).toSend = none := by
  intro other
  by_cases same : other = thread
  · subst same
    rw [setCall_same]
    exact nothing
  · rw [setCall_other calls thread other call same]
    exact others other same

theorem bytes_of_head (output : OutputQueue) (first : OutBuffer)
    (head : output.nodes.head? = some first) :
    ∃ rest, output.nodes = first :: rest ∧
      output.bytes = first.bytes ++ rest.flatMap OutBuffer.bytes := by
  rcases output with ⟨nodes, pendingWrite⟩
  cases nodes with
  | nil => contradiction
  | cons other rest =>
      cases head
      exact ⟨rest, rfl, rfl⟩

theorem Phase.handed_cases {side : WriteSide} (phase : side.Phase) :
    side.handed = side.completed ∨
      ∃ first, side.output.nodes.head? = some first ∧
        side.handed = side.completed ++ first.bytes := by
  cases phase with
  | empty nodes nobody none handed => exact Or.inl handed
  | armed first head thread target aims hits others none handed => exact Or.inl handed
  | inFlight first head nobody sending handed => exact Or.inr ⟨first, head, handed⟩
  | stalled first head nobody none handed => exact Or.inr ⟨first, head, handed⟩

theorem Phase.outstanding_cases {side : WriteSide} (phase : side.Phase) :
    side.outstanding = [] ∨
      ∃ first, side.output.nodes.head? = some first ∧ side.outstanding = [first] ∧
        (∀ thread, (side.calls thread).toSend = none) ∧
        side.handed = side.completed ++ first.bytes := by
  cases phase with
  | empty nodes nobody none handed => exact Or.inl none
  | armed first head thread target aims hits others none handed => exact Or.inl none
  | inFlight first head nobody sending handed =>
      exact Or.inr ⟨first, head, sending, nobody, handed⟩
  | stalled first head nobody none handed => exact Or.inl none

theorem Invariant.safe {side : WriteSide} (invariant : side.Invariant) : side.Safe := by
  rcases invariant with ⟨counted, passedOn, nothingLost, phase⟩
  have prefixes : side.handed <+: allBytes side.written ∧ side.completed <+: side.handed := by
    rcases phase.handed_cases with handed | ⟨first, head, handed⟩
    · rw [handed, nothingLost]
      exact ⟨List.prefix_append _ _, List.prefix_refl _⟩
    · obtain ⟨rest, _, content⟩ := bytes_of_head side.output first head
      rw [handed, nothingLost, content, ← List.append_assoc]
      exact ⟨List.prefix_append _ _, List.prefix_append _ _⟩
  have sending : side.outstanding.length ≤ 1 ∧
      ∀ buf ∈ side.outstanding, side.output.nodes.head? = some buf := by
    rcases phase.outstanding_cases with none | ⟨first, head, sending, _, _⟩
    · rw [none]
      exact ⟨Nat.zero_le _, List.forall_mem_nil _⟩
    · rw [sending]
      refine ⟨Nat.le_refl 1, fun buf member => ?_⟩
      rw [List.mem_singleton.mp member]
      exact head
  exact ⟨prefixes.1, passedOn, passedOn.everyByte, nothingLost, prefixes.2, sending.1, sending.2,
    counted, counted.exact⟩

theorem PassedOn.transfer {side other : WriteSide} (passedOn : side.PassedOn)
    (samePassed : other.passed = side.passed) (sameWritten : other.written = side.written)
    (rests : ∀ thread, (other.calls thread).rest = (side.calls thread).rest) :
    other.PassedOn := by
  intro thread
  rw [samePassed, sameWritten, rests]
  exact passedOn thread

theorem PassedOn.called {side : WriteSide} (passedOn : side.PassedOn) (thread : Nat)
    (buf : List UInt8) (free : side.calls thread = .idle) :
    PassedOn { side with
      calls := setCall side.calls thread ⟨buf, none⟩
      passed := side.passed ++ [⟨thread, buf⟩] } := by
  intro other
  dsimp only
  by_cases same : other = thread
  · have before := passedOn thread
    rw [free, WriteCall.idle, chunks, List.append_nil] at before
    rw [same, setCall_same, portionsOf_own, List.flatMap_append, before, List.flatMap_cons,
      List.flatMap_nil, List.append_nil]
  · rw [setCall_other _ _ _ _ same, portionsOf_other _ _ _ _ same]
    exact passedOn other

theorem PassedOn.wrote {side : WriteSide} (passedOn : side.PassedOn) (thread : Nat)
    (byte : UInt8) (more : List UInt8) (rest : (side.calls thread).rest = byte :: more) :
    PassedOn { side.writeChunk thread (byte :: more) with
      written := side.written ++ [⟨thread, (byte :: more).take bufferSize⟩] } := by
  intro other
  simp only [writeChunk]
  by_cases same : other = thread
  · have before := passedOn thread
    rw [rest, chunks, ← List.singleton_append, ← List.append_assoc] at before
    rw [same, setCall_same, portionsOf_own]
    exact before
  · rw [setCall_other _ _ _ _ same, portionsOf_other _ _ _ _ same]
    exact passedOn other

/-- A step that keeps the first buffer, all sends and the records keeps the phase. -/
theorem Phase.transfer {side other : WriteSide} (phase : side.Phase)
    (empties : side.output.nodes = [] → other.output.nodes = [])
    (heads : ∀ first, side.output.nodes.head? = some first →
      other.output.nodes.head? = some first)
    (sends : ∀ thread, (other.calls thread).toSend = (side.calls thread).toSend)
    (sameOutstanding : other.outstanding = side.outstanding)
    (sameHanded : other.handed = side.handed)
    (sameCompleted : other.completed = side.completed) : other.Phase := by
  cases phase with
  | empty nodes nobody none handed =>
      refine .empty (empties nodes) ?_ (sameOutstanding.trans none)
        (sameHanded.trans (handed.trans sameCompleted.symm))
      intro thread
      rw [sends, nobody]
  | armed first head thread target aims hits others none handed =>
      refine .armed first (heads first head) thread target ((sends thread).trans aims) hits ?_
        (sameOutstanding.trans none) (sameHanded.trans (handed.trans sameCompleted.symm))
      intro other differs
      rw [sends, others other differs]
  | inFlight first head nobody sending handed =>
      refine .inFlight first (heads first head) ?_ (sameOutstanding.trans sending) ?_
      · intro thread
        rw [sends, nobody]
      · rw [sameHanded, handed, sameCompleted]
  | stalled first head nobody none handed =>
      refine .stalled first (heads first head) ?_ (sameOutstanding.trans none) ?_
      · intro thread
        rw [sends, nobody]
      · rw [sameHanded, handed, sameCompleted]

/-! ### One step -/

/-- A send under way: some thread is about to call `WSASend`, or has done so. -/
def Busy (side : WriteSide) : Prop :=
  (∃ thread, (side.calls thread).toSend ≠ none) ∨ side.outstanding ≠ []

/-- An open connection with queued output has a send under way. -/
def Driven (side : WriteSide) : Prop :=
  side.handleOpen = true → side.output.nodes ≠ [] → side.Busy

/-- While the handle is open, `WSASend` does not fail outright and a successful
completion reports the size of the first buffer. -/
def Regular (side : WriteSide) (event : WriteEvent) : Prop :=
  side.handleOpen = true →
    match event with
    | .send _ accepted => accepted = true
    | .sent _ dwTransferred =>
        side.output.nodes.head?.map OutBuffer.size = some dwTransferred
    | _ => True

/-- What a step owes: the invariant, and sends kept going if it is regular. -/
def Keeps (side : WriteSide) (event : WriteEvent) (next : WriteSide) : Prop :=
  next.Invariant ∧ (side.Regular event → side.Driven → next.Driven)

theorem call_keeps (side next : WriteSide) (thread : Nat) (buf : List UInt8)
    (invariant : side.Invariant) (stepped : side.step (.call thread buf) = some next) :
    side.Keeps (.call thread buf) next := by
  rcases invariant with ⟨counted, passedOn, nothingLost, phase⟩
  simp only [step] at stepped
  split at stepped
  · rename_i free
    cases stepped
    have sends : ∀ other,
        (setCall side.calls thread ⟨buf, none⟩ other).toSend = (side.calls other).toSend := by
      intro other
      by_cases same : other = thread
      · rw [same, setCall_same, free]
        rfl
      · rw [setCall_other _ _ _ _ same]
    refine ⟨⟨counted, passedOn.called thread buf free, nothingLost,
      phase.transfer id (fun _ head => head) sends rfl rfl rfl⟩, fun _ driven isOpen waiting => ?_⟩
    rcases driven isOpen waiting with ⟨other, sending⟩ | sending
    · exact Or.inl ⟨other, (sends other).symm ▸ sending⟩
    · exact Or.inr sending
  · contradiction

theorem write_keeps (side next : WriteSide) (thread : Nat)
    (invariant : side.Invariant) (stepped : side.step (.write thread) = some next) :
    side.Keeps (.write thread) next := by
  rcases invariant with ⟨counted, passedOn, nothingLost, phase⟩
  simp only [step] at stepped
  split at stepped
  · rename_i byte more noSend rest
    cases stepped
    let buf : OutBuffer :=
      ⟨side.nextObject, (byte :: more).take bufferSize, List.length_take_le _ _⟩
    have extended : allBytes (side.written ++ [⟨thread, buf.bytes⟩]) =
        side.completed ++ (side.output.enqueue buf).1.bytes := by
      rw [allBytes_append, OutputQueue.enqueue_bytes, nothingLost, List.append_assoc]
    have onward := passedOn.wrote thread byte more rest
    by_cases none : side.output.nodes = []
    · -- The queue was empty: this thread starts the send.
      have started := fun buf => (OutputQueue.enqueue_started_iff side.output buf).mpr none
      have alone := fun buf => OutputQueue.enqueue_nodes_nil side.output buf none
      cases phase with
      | empty _ nobody noSends handed =>
          refine ⟨⟨OutputQueue.enqueue_counted _ _ counted, onward, extended, ?_⟩,
            fun _ _ _ _ => ?_⟩
          · refine .armed _ (congrArg List.head? (alone _)) thread _ ?_ (Or.inr rfl) ?_
              noSends handed
            · simp only [writeChunk, started, setCall_same]
            · intro other differs
              simp only [writeChunk, setCall_other _ _ _ _ differs, nobody]
          · refine Or.inl ⟨thread, ?_⟩
            simp only [writeChunk, started, setCall_same]
            exact Option.some_ne_none _
      | armed first head =>
          rw [none] at head
          contradiction
      | inFlight first head =>
          rw [none] at head
          contradiction
      | stalled first head =>
          rw [none] at head
          contradiction
    · -- The queue was not empty: no branch touches its first buffer.
      have quiet : ∀ buf, (side.output.enqueue buf).2 ≠ .started := fun buf started =>
        none ((OutputQueue.enqueue_started_iff side.output buf).mp started)
      have sends : ∀ other,
          ((side.writeChunk thread (byte :: more)).calls other).toSend =
            (side.calls other).toSend := by
        intro other
        by_cases same : other = thread
        · subst same
          rw [noSend]
          simp only [writeChunk, setCall_same]
          split
          · rename_i started
            exact absurd started (quiet _)
          · rfl
          · rfl
        · simp only [writeChunk, setCall_other _ _ _ _ same]
      refine ⟨⟨OutputQueue.enqueue_counted _ _ counted, onward, extended, ?_⟩,
        fun _ driven isOpen _ => ?_⟩
      · exact phase.transfer (fun empty => absurd empty none)
          (fun first head => OutputQueue.enqueue_head side.output _ first head) sends rfl rfl rfl
      · rcases driven isOpen none with ⟨other, sending⟩ | sending
        · exact Or.inl ⟨other, (sends other).symm ▸ sending⟩
        · exact Or.inr sending
  · contradiction

theorem send_keeps (side next : WriteSide) (thread : Nat) (accepted : Bool)
    (invariant : side.Invariant) (stepped : side.step (.send thread accepted) = some next) :
    side.Keeps (.send thread accepted) next := by
  rcases invariant with ⟨counted, passedOn, nothingLost, phase⟩
  simp only [step] at stepped
  split at stepped
  · contradiction
  · rename_i target aims
    obtain ⟨buf, hit, same⟩ := Option.map_eq_some_iff.mp stepped
    subst same
    cases phase with
    | empty _ nobody =>
        rw [nobody] at aims
        contradiction
    | inFlight _ _ nobody =>
        rw [nobody] at aims
        contradiction
    | stalled _ _ nobody =>
        rw [nobody] at aims
        contradiction
    | armed first head sender goal sets hits others noSends handed =>
        have isSender : thread = sender := by
          by_contra differs
          rw [others thread differs] at aims
          contradiction
        subst isSender
        have goalIs : goal = target := Option.some.inj (sets.symm.trans aims)
        subst goalIs
        have bufIs : buf = first := by
          obtain ⟨rest, nodes, _⟩ := bytes_of_head side.output first head
          rcases hits with rfl | rfl
          · exact Option.some.inj (hit.symm.trans head)
          · simp only [aim, nodes, List.find?_cons, decide_true, Option.some.injEq] at hit
            exact hit.symm
        subst bufIs
        have nobody := setCall_nobody side.calls thread { side.calls thread with toSend := none }
          rfl others
        have rests : ∀ other, (setCall side.calls thread
            { side.calls thread with toSend := none } other).rest = (side.calls other).rest := by
          intro other
          by_cases same : other = thread
          · rw [same, setCall_same]
          · rw [setCall_other _ _ _ _ same]
        refine ⟨⟨counted, passedOn.transfer rfl rfl rests, nothingLost, ?_⟩,
          fun regular _ isOpen _ => ?_⟩
        · cases accepted with
          | true =>
              refine .inFlight buf head nobody ?_ ?_
              · simp only [wsaSend, noSends, if_true]
              · simp only [wsaSend, handed]
          | false =>
              refine .stalled buf head nobody ?_ ?_
              · simp only [wsaSend, noSends, Bool.false_eq_true, if_false]
              · simp only [wsaSend, handed]
        · have taken : accepted = true := regular isOpen
          apply Or.inr
          simp only [wsaSend, taken, if_true]
          exact List.cons_ne_nil _ _

theorem sent_keeps (side next : WriteSide) (thread dwTransferred : Nat)
    (invariant : side.Invariant) (stepped : side.step (.sent thread dwTransferred) = some next) :
    side.Keeps (.sent thread dwTransferred) next := by
  rcases invariant with ⟨counted, passedOn, nothingLost, phase⟩
  simp only [step] at stepped
  split at stepped
  · contradiction
  · rename_i possible
    obtain ⟨outstanding, free⟩ := not_or.mp possible
    rcases phase.outstanding_cases with none | ⟨first, head, sending, nobody, handed⟩
    · exact absurd none outstanding
    · obtain ⟨rest, nodes, content⟩ := bytes_of_head side.output first head
      obtain ⟨⟨output, outcome⟩, dequeued, same⟩ := Option.map_eq_some_iff.mp stepped
      obtain ⟨other, others, otherNodes, cases_⟩ :=
        OutputQueue.dequeue_cases side.output output dwTransferred outcome dequeued
      rw [nodes, List.cons.injEq] at otherNodes
      obtain ⟨rfl, rfl⟩ := otherNodes
      have noneLeft : side.outstanding.tail = [] := by
        rw [sending]
        rfl
      rcases cases_ with ⟨rfl, rfl, differs⟩ | ⟨notDifferent, next_iff, _, popped, recounted⟩
      · subst same
        refine ⟨⟨counted, passedOn, nothingLost, .stalled first head nobody noneLeft handed⟩,
          fun regular _ isOpen _ => ?_⟩
        have reported : side.output.nodes.head?.map OutBuffer.size = some dwTransferred :=
          regular isOpen
        rw [head, Option.map_some, Option.some.injEq] at reported
        exact absurd reported.symm differs
      · have moved : allBytes side.written =
            (side.completed ++ first.bytes) ++ output.bytes := by
          rw [nothingLost, content, List.append_assoc]
          simp only [OutputQueue.bytes, popped]
        have taken : (side.output.nodes.head?.map OutBuffer.bytes).getD [] = first.bytes := by
          rw [head]
          rfl
        cases outcome with
        | differentCount => exact absurd rfl notDifferent
        | emptied =>
            have last : rest = [] := by
              by_contra more
              have sends := next_iff.mpr more
              contradiction
            simp only [taken] at same
            subst same
            refine ⟨⟨recounted counted, passedOn, moved, .empty ?_ nobody noneLeft handed⟩,
              fun _ _ _ waiting => ?_⟩
            · exact popped.trans last
            · exact absurd (popped.trans last) waiting
        | sendNext =>
            have more : rest ≠ [] := next_iff.mp rfl
            obtain ⟨second, isSecond⟩ : ∃ second, rest.head? = some second := by
              cases rest with
              | nil => exact absurd rfl more
              | cons second _ => exact ⟨second, rfl⟩
            simp only [taken] at same
            subst same
            have rests : ∀ other, (setCall side.calls thread ⟨[], some .firstBuf⟩ other).rest =
                (side.calls other).rest := by
              intro other
              by_cases same : other = thread
              · rw [same, setCall_same, not_not.mp free]
                rfl
              · rw [setCall_other _ _ _ _ same]
            refine ⟨⟨recounted counted, passedOn.transfer rfl rfl rests, moved, ?_⟩,
              fun _ _ _ _ => ?_⟩
            · refine .armed second ?_ thread .firstBuf ?_ (Or.inl rfl) ?_ noneLeft handed
              · exact (congrArg List.head? popped).trans isSecond
              · simp only [setCall_same]
              · intro other differs
                simp only [setCall_other _ _ _ _ differs, nobody]
            · refine Or.inl ⟨thread, ?_⟩
              simp only [setCall_same]
              exact Option.some_ne_none _

theorem sendFailed_keeps (side next : WriteSide) (invariant : side.Invariant)
    (stepped : side.step .sendFailed = some next) : side.Keeps .sendFailed next := by
  rcases invariant with ⟨counted, passedOn, nothingLost, phase⟩
  simp only [step] at stepped
  split at stepped
  · contradiction
  · rename_i outstanding
    cases stepped
    rcases phase.outstanding_cases with none | ⟨first, head, sending, nobody, handed⟩
    · exact absurd none outstanding
    · have noneLeft : side.outstanding.tail = [] := by
        rw [sending]
        rfl
      refine ⟨⟨counted, passedOn, nothingLost, .stalled first head nobody noneLeft handed⟩,
        fun _ _ isOpen => ?_⟩
      contradiction

theorem closeSocket_keeps (side next : WriteSide) (invariant : side.Invariant)
    (stepped : side.step .closeSocket = some next) : side.Keeps .closeSocket next := by
  rcases invariant with ⟨counted, passedOn, nothingLost, phase⟩
  cases stepped
  refine ⟨⟨counted, passedOn, nothingLost, ?_⟩, fun _ _ isOpen => ?_⟩
  · exact phase.transfer id (fun _ head => head) (fun _ => rfl) rfl rfl rfl
  · contradiction

theorem step_keeps (side next : WriteSide) (event : WriteEvent) (invariant : side.Invariant)
    (stepped : side.step event = some next) : side.Keeps event next := by
  cases event with
  | call thread buf => exact call_keeps side next thread buf invariant stepped
  | write thread => exact write_keeps side next thread invariant stepped
  | send thread accepted => exact send_keeps side next thread accepted invariant stepped
  | sent thread dwTransferred =>
      exact sent_keeps side next thread dwTransferred invariant stepped
  | sendFailed => exact sendFailed_keeps side next invariant stepped
  | closeSocket => exact closeSocket_keeps side next invariant stepped

/-! ### All runs -/

theorem start_invariant : start.Invariant :=
  ⟨rfl, fun _ => chunks.eq_1.symm, rfl, .empty rfl (fun _ => rfl) rfl rfl⟩

theorem start_driven : start.Driven := fun _ waiting => absurd rfl waiting

/-- Whatever the calls, completions and results, the bytes go out once and in
order, one send at a time, from a buffer nobody touches. -/
theorem sent_in_order (events : List WriteEvent) : machine.Throughout Safe start events :=
  machine.throughout_of_guarded Invariant Safe (fun _ _ => True)
    (fun side event next invariant _ stepped => (step_keeps side next event invariant stepped).1)
    (fun _ invariant => invariant.safe) events start start_invariant
    (machine.guarded_of_step _ (fun _ _ _ _ => trivial) events start)

/-- A thread that is about to send finds its buffer, and a completion finds the
buffer it belongs to. -/
theorem sends_defined (events : List WriteEvent) :
    machine.Throughout (fun side =>
      (∀ thread accepted, (side.calls thread).toSend ≠ none →
        (side.step (.send thread accepted)).isSome) ∧
      ∀ thread dwTransferred, side.outstanding ≠ [] → side.calls thread = .idle →
        (side.step (.sent thread dwTransferred)).isSome) start events := by
  refine machine.throughout_of_guarded Invariant _ (fun _ _ => True)
    (fun side event next invariant _ stepped => (step_keeps side next event invariant stepped).1)
    (fun side invariant => ?_) events start start_invariant
    (machine.guarded_of_step _ (fun _ _ _ _ => trivial) events start)
  constructor
  · intro thread accepted sending
    cases invariant.phase with
    | empty _ nobody => exact absurd (nobody thread) sending
    | inFlight _ _ nobody => exact absurd (nobody thread) sending
    | stalled _ _ nobody => exact absurd (nobody thread) sending
    | armed first head sender target aims hits others =>
        have isSender : thread = sender := by
          by_contra differs
          exact sending (others thread differs)
        subst isSender
        obtain ⟨rest, nodes, _⟩ := bytes_of_head side.output first head
        simp only [step, aims]
        rcases hits with rfl | rfl
        · simp only [aim, head, Option.map_some, Option.isSome_some]
        · simp only [aim, nodes, List.find?_cons, decide_true, Option.map_some,
            Option.isSome_some]
  · intro thread dwTransferred outstanding free
    rcases invariant.phase.outstanding_cases with none | ⟨first, head, _⟩
    · exact absurd none outstanding
    · obtain ⟨rest, nodes, _⟩ := bytes_of_head side.output first head
      obtain ⟨dequeued, found⟩ := OutputQueue.dequeue_defined side.output dwTransferred
        (nodes ▸ List.cons_ne_nil first rest)
      have possible : ¬ (side.outstanding = [] ∨ side.calls thread ≠ .idle) :=
        not_or.mpr ⟨outstanding, not_not.mpr free⟩
      simp only [step, if_neg possible, onWriteCallback, found, Option.map_some,
        Option.isSome_some]

/-- Between calls, an open connection that still drives its output has the
first buffer in flight. -/
theorem Driven.pushed {side : WriteSide} (driven : side.Driven) (invariant : side.Invariant) :
    side.Pushed := by
  intro isOpen quiescent waiting
  rcases driven isOpen waiting with ⟨thread, sending⟩ | sending
  · rw [quiescent thread] at sending
    exact absurd rfl sending
  · rcases invariant.phase.outstanding_cases with none | ⟨first, head, only, _⟩
    · exact absurd none sending
    · exact ⟨first, head, only⟩

/-- As long as no `WSASend` fails outright and no completion is short, queued
output of an open connection is always on its way. -/
theorem pushed_while_regular (events : List WriteEvent)
    (regular : machine.Guarded Regular start events) :
    machine.Throughout Pushed start events :=
  machine.throughout_of_guarded (fun side => side.Invariant ∧ side.Driven) Pushed Regular
    (fun side event next kept regular stepped =>
      let keeps := step_keeps side next event kept.1 stepped
      ⟨keeps.1, keeps.2 regular kept.2⟩)
    (fun _ kept => kept.2.pushed kept.1) events start ⟨start_invariant, start_driven⟩ regular

/-- Two writes, the second behind the first while it is in flight. -/
theorem two_writes_pushed :
    machine.Throughout Pushed start
      [.call 0 [7], .write 0, .send 0 true, .call 1 [8], .write 1] := by
  apply pushed_while_regular _
  intro next same
  cases same
  refine ⟨fun _ => trivial, ?_⟩
  intro next same
  cases same
  refine ⟨fun _ => trivial, ?_⟩
  intro next same
  cases same
  refine ⟨fun _ => rfl, ?_⟩
  intro next same
  cases same
  refine ⟨fun _ => trivial, ?_⟩
  intro next same
  cases same
  exact ⟨fun _ => trivial, trivial⟩

/-- One write whose `WSASend` fails: the connection stays open, its buffer stays
queued and no completion will ever come. -/
theorem failed_send_stalls :
    ¬ ∀ events : List WriteEvent, machine.Throughout Pushed start events := by
  intro claimed
  have run := claimed [.call 0 [7], .write 0, .send 0 false]
  have final : Pushed _ := ((run.2 _ rfl).2 _ rfl).2 _ rfl
  refine absurd (final rfl ?_ (List.cons_ne_nil _ _)) ?_
  · intro thread
    by_cases same : thread = 0
    · subst same
      rfl
    · exact (setCall_other _ 0 thread _ same).trans
        ((setCall_other _ 0 thread _ same).trans (setCall_other _ 0 thread _ same))
  · intro given
    obtain ⟨first, _, sending⟩ := given
    exact absurd sending.symm (List.cons_ne_nil _ _)

end WriteSide

end AuthServer
