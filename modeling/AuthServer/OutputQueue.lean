/-
The output queue of a socket: the two sections that run under its lock.

`enqueue` is `CIOSocket::Write` and `dequeue` is `CIOSocket::OnWriteCallback`,
each from `EnterCriticalSection` to `LeaveCriticalSection`.  The list holds the
buffers from `m_pFirstBuf` to `m_pLastBuf`, each with the object it is, so that
the test on the two pointers is the test of the source.  `m_nPendingWrite` is a
32-bit counter.
-/

import AuthServer.IOBuffer
import Mathlib.Algebra.Ring.Nat

set_option autoImplicit false

namespace AuthServer

/-- A `CIOBuffer` with output: which object it is, and its first `m_size` bytes. -/
structure OutBuffer where
  object : Nat
  bytes : List UInt8
  within : bytes.length ≤ bufferSize
  deriving DecidableEq, Repr

namespace OutBuffer

def size (buf : OutBuffer) : Nat := buf.bytes.length

def append (buf more : OutBuffer) (fits : buf.size + more.size ≤ bufferSize) : OutBuffer where
  object := buf.object
  bytes := buf.bytes ++ more.bytes
  within := by
    rw [List.length_append]
    exact fits

end OutBuffer

structure OutputQueue where
  nodes : List OutBuffer
  pendingWrite : BitVec 32
  deriving DecidableEq, Repr

inductive Queued where
  | started
  | coalesced
  | appended
  deriving DecidableEq, Repr

inductive Completed where
  | differentCount
  | sendNext
  | emptied
  deriving DecidableEq, Repr

namespace OutputQueue

def empty : OutputQueue := { nodes := [], pendingWrite := 0 }

def bytes (queue : OutputQueue) : List UInt8 := queue.nodes.flatMap OutBuffer.bytes

def size (queue : OutputQueue) : Nat := (queue.nodes.map OutBuffer.size).sum

def link (nodes : List OutBuffer) (buf : OutBuffer) : List OutBuffer × Queued :=
  match nodes with
  | [] => ([buf], .started)
  | first :: rest =>
      let last := (first :: rest).getLast (List.cons_ne_nil first rest)
      if fits : first.object ≠ last.object ∧ last.size + buf.size ≤ bufferSize then
        ((first :: rest).dropLast ++ [last.append buf fits.2], .coalesced)
      else (first :: rest ++ [buf], .appended)

def enqueue (queue : OutputQueue) (buf : OutBuffer) : OutputQueue × Queued :=
  let linked := link queue.nodes buf
  ({ nodes := linked.1, pendingWrite := queue.pendingWrite + BitVec.ofNat 32 buf.size },
    linked.2)

/-- The comparison reads `m_pFirstBuf->m_size`, so an empty queue is undefined. -/
def dequeue (queue : OutputQueue) (dwTransferred : Nat) : Option (OutputQueue × Completed) :=
  match queue.nodes with
  | [] => none
  | first :: rest =>
      if dwTransferred ≠ first.size then some (queue, .differentCount)
      else
        some
          ({ nodes := rest, pendingWrite := queue.pendingWrite - BitVec.ofNat 32 first.size },
            if rest.isEmpty then .emptied else .sendNext)

/-- The counter agrees with the queue, as 32-bit values. -/
def Counted (queue : OutputQueue) : Prop :=
  queue.pendingWrite = BitVec.ofNat 32 queue.size

/-- Below 2 ^ 31 bytes the counter is the total itself. -/
theorem Counted.exact {queue : OutputQueue} (counted : queue.Counted)
    (small : queue.size < 2 ^ 31) : queue.pendingWrite.toInt = queue.size := by
  rw [(counted : queue.pendingWrite = _), BitVec.toInt_eq_toNat_of_lt, BitVec.toNat_ofNat]
  · omega
  · rw [BitVec.toNat_ofNat]
    omega

theorem link_nil (buf : OutBuffer) : link [] buf = ([buf], .started) := rfl

/-- On a queue that is not empty, no branch touches the first buffer or starts
a send; the bytes go to the end. -/
theorem link_cons (first : OutBuffer) (rest : List OutBuffer) (buf : OutBuffer) :
    ∃ others queued, link (first :: rest) buf = (first :: others, queued) ∧
      queued ≠ .started ∧
      others.flatMap OutBuffer.bytes = rest.flatMap OutBuffer.bytes ++ buf.bytes ∧
      (others.map OutBuffer.size).sum = (rest.map OutBuffer.size).sum + buf.size := by
  unfold link
  simp only
  split
  · rename_i fits
    cases rest with
    | nil => exact absurd rfl fits.1
    | cons second others =>
        have whole := List.dropLast_append_getLast (List.cons_ne_nil second others)
        have last : (first :: second :: others).getLast (List.cons_ne_nil _ _) =
            (second :: others).getLast (List.cons_ne_nil second others) := rfl
        refine ⟨(second :: others).dropLast ++ [_], .coalesced, rfl, nofun, ?_, ?_⟩
        · conv_rhs => rw [← whole]
          simp only [List.flatMap_append, List.flatMap_cons, List.flatMap_nil,
            OutBuffer.append, last, List.append_nil, List.append_assoc]
        · conv_rhs => rw [← whole]
          simp only [List.map_append, List.map_cons, List.map_nil, List.sum_append,
            List.sum_cons, List.sum_nil, OutBuffer.append, OutBuffer.size, last,
            List.length_append]
          omega
  · refine ⟨rest ++ [buf], .appended, rfl, nofun, ?_, ?_⟩
    · simp only [List.flatMap_append, List.flatMap_cons, List.flatMap_nil, List.append_nil]
    · simp only [List.map_append, List.map_cons, List.map_nil, List.sum_append,
        List.sum_cons, List.sum_nil]
      omega

theorem enqueue_bytes (queue : OutputQueue) (buf : OutBuffer) :
    (queue.enqueue buf).1.bytes = queue.bytes ++ buf.bytes := by
  rcases queue with ⟨nodes, pendingWrite⟩
  cases nodes with
  | nil =>
      simp only [enqueue, bytes, link_nil, List.flatMap_cons, List.flatMap_nil,
        List.append_nil, List.nil_append]
  | cons first rest =>
      obtain ⟨others, queued, linked, _, content, _⟩ := link_cons first rest buf
      simp only [enqueue, bytes, linked, List.flatMap_cons, content, List.append_assoc]

theorem enqueue_counted (queue : OutputQueue) (buf : OutBuffer) (counted : queue.Counted) :
    (queue.enqueue buf).1.Counted := by
  have total : (queue.enqueue buf).1.size = queue.size + buf.size := by
    rcases queue with ⟨nodes, pendingWrite⟩
    cases nodes with
    | nil =>
        simp only [enqueue, size, link_nil, List.map_cons, List.map_nil, List.sum_cons,
          List.sum_nil]
        omega
    | cons first rest =>
        obtain ⟨others, queued, linked, _, _, sizes⟩ := link_cons first rest buf
        simp only [enqueue, size, linked, List.map_cons, List.sum_cons, sizes]
        omega
  unfold Counted
  rw [total, BitVec.ofNat_add, ← (counted : queue.pendingWrite = _)]
  rfl

theorem enqueue_started_iff (queue : OutputQueue) (buf : OutBuffer) :
    (queue.enqueue buf).2 = .started ↔ queue.nodes = [] := by
  rcases queue with ⟨nodes, pendingWrite⟩
  cases nodes with
  | nil => exact ⟨fun _ => rfl, fun _ => rfl⟩
  | cons first rest =>
      obtain ⟨others, queued, linked, notStarted, _⟩ := link_cons first rest buf
      constructor
      · intro started
        simp only [enqueue, linked] at started
        exact absurd started notStarted
      · intro none
        contradiction

theorem enqueue_nodes_ne_nil (queue : OutputQueue) (buf : OutBuffer) :
    (queue.enqueue buf).1.nodes ≠ [] := by
  rcases queue with ⟨nodes, pendingWrite⟩
  cases nodes with
  | nil => exact List.cons_ne_nil buf []
  | cons first rest =>
      obtain ⟨others, queued, linked, _⟩ := link_cons first rest buf
      simp only [enqueue, linked]
      exact List.cons_ne_nil first others

theorem enqueue_nodes_nil (queue : OutputQueue) (buf : OutBuffer) (none : queue.nodes = []) :
    (queue.enqueue buf).1.nodes = [buf] := by
  simp only [enqueue, none, link_nil]

theorem enqueue_head (queue : OutputQueue) (buf first : OutBuffer)
    (head : queue.nodes.head? = some first) :
    (queue.enqueue buf).1.nodes.head? = some first := by
  rcases queue with ⟨nodes, pendingWrite⟩
  cases nodes with
  | nil => contradiction
  | cons other rest =>
      cases head
      obtain ⟨others, queued, linked, _⟩ := link_cons first rest buf
      simp only [enqueue, linked, List.head?_cons]

theorem dequeue_defined (queue : OutputQueue) (dwTransferred : Nat)
    (waiting : queue.nodes ≠ []) : ∃ dequeued, queue.dequeue dwTransferred = some dequeued := by
  rcases queue with ⟨nodes, pendingWrite⟩
  cases nodes with
  | nil => exact absurd rfl waiting
  | cons first rest =>
      simp only [dequeue]
      split
      · exact ⟨_, rfl⟩
      · exact ⟨_, rfl⟩

theorem dequeue_cases (queue next : OutputQueue) (dwTransferred : Nat) (outcome : Completed)
    (dequeued : queue.dequeue dwTransferred = some (next, outcome)) :
    ∃ first rest, queue.nodes = first :: rest ∧
      ((outcome = .differentCount ∧ next = queue ∧ dwTransferred ≠ first.size) ∨
        (outcome ≠ .differentCount ∧ (outcome = .sendNext ↔ rest ≠ []) ∧
          dwTransferred = first.size ∧ next.nodes = rest ∧
          (queue.Counted → next.Counted))) := by
  rcases queue with ⟨nodes, pendingWrite⟩
  cases nodes with
  | nil => contradiction
  | cons first rest =>
      refine ⟨first, rest, rfl, ?_⟩
      simp only [dequeue] at dequeued
      split at dequeued
      · rename_i differs
        cases dequeued
        exact Or.inl ⟨rfl, rfl, differs⟩
      · rename_i same
        cases dequeued
        refine Or.inr ⟨?_, ?_, Decidable.not_not.mp same, rfl, ?_⟩
        · cases rest <;> nofun
        · cases rest with
          | nil => exact ⟨nofun, fun nonempty => absurd rfl nonempty⟩
          | cons second others => exact ⟨fun _ => nofun, fun _ => rfl⟩
        · intro counted
          change pendingWrite - _ = _
          have total : pendingWrite = BitVec.ofNat 32 (first.size + (rest.map OutBuffer.size).sum) :=
            counted
          rw [total, BitVec.ofNat_add, BitVec.add_comm, BitVec.add_sub_cancel]
          rfl

end OutputQueue

end AuthServer
