/-
The read buffers of a client connection under any interleaving.

The thread that serves a receive runs `OnRead` and `Read` step by step; the
handlers of posted packets, other users of the socket and the network move in
between.  `Read` is cut where another thread can matter: reading `m_ref`,
copying to a fresh buffer, switching over to it, moving in place, and posting
the next receive.  `allocs` and `frees` of the pool only count the calls.
A buffer with no reference belongs to the pool, which may hand it to others
and so change its contents.
-/

import AuthServer.Lib.EventRuns
import AuthServer.Lib.RefPool
import AuthServer.SocketReader

set_option autoImplicit false

namespace AuthServer

open LinearMemory

/-- Where the thread that serves a receive stands. -/
inductive Reader where
  | parsing (pi ri : Nat)
  | testing (left : Nat)
  | copying (left : Nat)
  | moving (left : Nat)
  | switching (fresh left : Nat)
  | posting
  deriving DecidableEq, Repr

/-- A posted packet until its handler is done.  `bytes` records what was parsed
for it; `holdsSocket` ends with `m_pSocket->ReleaseRef()`. -/
structure PostedPacket where
  buffer : Nat
  offset : Nat
  length : Nat
  bytes : List UInt8
  holdsSocket : Bool
  deriving DecidableEq, Repr

structure PostedReceive where
  buffer : Nat
  region : WsaBuf
  deriving DecidableEq, Repr

structure ReadSide where
  pool : RefPool.Pool Nat
  cells : Nat → Nat → UInt8
  size : Nat → Nat
  current : Option Nat
  read : ReadState
  reader : Option Reader
  receive : Option PostedReceive
  packets : List PostedPacket
  handleOpen : Bool
  refcount : Int
  returning : Nat
  others : Nat

inductive ReadEvent where
  | deviceWrites (bytes : List UInt8)
  | received (dwTransferred : Nat)
  | receiveFailed
  | turn
  | testRef
  | copy (fresh : Nat)
  | switch
  | move
  | post (accepted : Bool)
  | returned
  | releaseSocket (packet : Nat)
  | releaseBuffer (packet : Nat)
  | closeSocket
  | addRef
  | releaseRef
  | destroy
  | reuse (buffer : Nat) (cells : Nat → UInt8)

namespace ReadSide

def start (packetLen : Int) (cells : Nat → Nat → UInt8) : ReadSide where
  pool := RefPool.Pool.acquire ⟨fun _ => 0, fun _ => 0, fun _ => 0⟩ 0
  cells := cells
  size := fun _ => 0
  current := some 0
  read := ⟨.readLen, packetLen⟩
  reader := some (.parsing 0 0)
  receive := none
  packets := []
  handleOpen := true
  refcount := 2
  returning := 0
  others := 0

def close (side : ReadSide) : ReadSide :=
  if side.handleOpen then
    { side with
      handleOpen := false
      refcount := side.refcount - 1
      read := { side.read with mode := .close } }
  else side

def leave (side : ReadSide) : ReadSide :=
  { side with reader := none, returning := side.returning + 1 }

def dispatch (side : ReadSide) (buffer pi ri : Nat) : ReadSide :=
  let length := side.read.packetLen.toNat
  { side with
    pool := side.pool.retain buffer
    packets := side.packets ++
      [{ buffer := buffer, offset := pi, length := length,
         bytes := slice (side.cells buffer) pi length, holdsSocket := true }]
    refcount := side.refcount + 1
    read := { side.read with mode := .readLen }
    reader := some (.parsing (pi + length) ri) }

def parseTurn (side : ReadSide) (buffer pi ri : Nat) : ReadSide :=
  match CSocketServerEx.lengthRule.turn (side.cells buffer) ri side.read pi with
  | .read left =>
      { side with
        size := Function.update side.size buffer (side.size buffer - left)
        reader := some (.testing left) }
  | .header packetLen =>
      { side with read := ⟨.readBody, packetLen⟩, reader := some (.parsing (pi + 2) ri) }
  | .dispatch => side.dispatch buffer pi ri
  | .leave _ => side.close.leave

def copyLeft (side : ReadSide) (buffer fresh left : Nat) : ReadSide :=
  let kept := slice (side.cells buffer) (side.size buffer) left
  { side with
    pool := side.pool.acquire fresh
    cells := Function.update side.cells fresh (store (side.cells fresh) 0 kept)
    reader := some (.switching fresh left) }

def moveLeft (side : ReadSide) (buffer left : Nat) : ReadSide :=
  let kept := slice (side.cells buffer) (side.size buffer) left
  { side with
    cells := Function.update side.cells buffer (store (side.cells buffer) 0 kept)
    size := Function.update side.size buffer left
    reader := some .posting }

/-- `WSARecv`, with the reference it takes; a failure closes the socket and
gives the reference back. -/
def postReceive (side : ReadSide) (buffer : Nat) (accepted : Bool) : ReadSide :=
  if accepted then
    let region : WsaBuf :=
      { offset := side.size buffer
        len := dword ((bufferSize : Int) - side.size buffer) }
    leave { side with receive := some ⟨buffer, region⟩, refcount := side.refcount + 1 }
  else side.close.leave

def onReadCallback (side : ReadSide) (buffer dwTransferred : Nat) : ReadSide :=
  let side := { side with receive := none }
  if dwTransferred = 0 then side.close.leave
  else if side.refcount ≤ 0 then side.leave
  else
    let filled := side.size buffer + dwTransferred
    let side := { side with size := Function.update side.size buffer filled }
    if side.read.mode = .close then side.close.leave
    else { side with reader := some (.parsing 0 filled) }

def step (side : ReadSide) : ReadEvent → Option ReadSide
  | .deviceWrites bytes =>
      match side.receive with
      | none => none
      | some posted =>
          if bytes.length ≤ posted.region.len then
            some { side with
              cells := Function.update side.cells posted.buffer
                (store (side.cells posted.buffer) posted.region.offset bytes) }
          else none
  | .received dwTransferred =>
      match side.receive, side.current with
      | some posted, some buffer =>
          if dwTransferred ≤ posted.region.len then
            some (side.onReadCallback buffer dwTransferred)
          else none
      | _, _ => none
  | .receiveFailed =>
      match side.receive with
      | none => none
      | some _ => some (leave (close { side with receive := none }))
  | .turn =>
      match side.reader, side.current with
      | some (.parsing pi ri), some buffer => some (side.parseTurn buffer pi ri)
      | _, _ => none
  | .testRef =>
      match side.reader, side.current with
      | some (.testing left), some buffer =>
          if side.pool.ref buffer ≠ 1 then some { side with reader := some (.copying left) }
          else some { side with reader := some (.moving left) }
      | _, _ => none
  | .copy fresh =>
      match side.reader, side.current with
      | some (.copying left), some buffer =>
          if side.pool.ref fresh = 0 then some (side.copyLeft buffer fresh left) else none
      | _, _ => none
  | .switch =>
      match side.reader, side.current with
      | some (.switching fresh left), some buffer =>
          some { side with
            pool := side.pool.release buffer
            current := some fresh
            size := Function.update side.size fresh left
            reader := some .posting }
      | _, _ => none
  | .move =>
      match side.reader, side.current with
      | some (.moving left), some buffer => some (side.moveLeft buffer left)
      | _, _ => none
  | .post accepted =>
      match side.reader, side.current with
      | some .posting, some buffer => some (side.postReceive buffer accepted)
      | _, _ => none
  | .returned =>
      if side.returning = 0 then none
      else some { side with returning := side.returning - 1, refcount := side.refcount - 1 }
  | .releaseSocket packet =>
      match side.packets[packet]? with
      | none => none
      | some posted =>
          if posted.holdsSocket then
            some { side with
              packets := side.packets.set packet { posted with holdsSocket := false }
              refcount := side.refcount - 1 }
          else none
  | .releaseBuffer packet =>
      match side.packets[packet]? with
      | none => none
      | some posted =>
          if posted.holdsSocket then none
          else
            some { side with
              pool := side.pool.release posted.buffer
              packets := side.packets.eraseIdx packet }
  | .closeSocket => if side.refcount ≤ 0 then none else some side.close
  | .addRef =>
      if side.refcount ≤ 0 then none
      else some { side with others := side.others + 1, refcount := side.refcount + 1 }
  | .releaseRef =>
      if side.others = 0 then none
      else some { side with others := side.others - 1, refcount := side.refcount - 1 }
  | .destroy =>
      match side.current with
      | none => none
      | some buffer =>
          if side.refcount = 0 then
            some { side with pool := side.pool.release buffer, current := none }
          else none
  | .reuse buffer cells =>
      if side.pool.ref buffer = 0 then
        some { side with cells := Function.update side.cells buffer cells }
      else none

def machine : EventRuns.Machine ReadSide ReadEvent := ⟨step⟩

def fresh (side : ReadSide) : Option Nat :=
  match side.reader with
  | some (.switching fresh _) => some fresh
  | _ => none

def packetsInto (side : ReadSide) (buffer : Nat) : Nat :=
  side.packets.countP fun packet => packet.buffer = buffer

/-- What holds of the buffers at every moment. -/
structure Safe (side : ReadSide) : Prop where
  counted : ∀ buffer, side.pool.ref buffer =
    (side.packetsInto buffer + (if side.current = some buffer then 1 else 0) +
      (if side.fresh = some buffer then 1 else 0) : Nat)
  intact : ∀ packet ∈ side.packets,
    slice (side.cells packet.buffer) packet.offset packet.length = packet.bytes
  returnedOnce : ∀ buffer, side.pool.allocs buffer =
    side.pool.frees buffer + (if side.pool.ref buffer = 0 then 0 else 1)
  attached : (side.reader ≠ none ∨ side.receive ≠ none) → side.current ≠ none

/-! ### What is counted -/

def references (side : ReadSide) : List Nat :=
  side.packets.map PostedPacket.buffer ++ side.current.toList ++ side.fresh.toList

/-- The bytes of the read buffer may be overwritten: a receive is posted into
it, or it is about to be moved or posted. -/
def Exposed (side : ReadSide) : Prop :=
  side.receive ≠ none ∨ (∃ left, side.reader = some (.moving left)) ∨
    side.reader = some .posting

theorem Exposed.receiving {side : ReadSide} (exposed : side.Exposed) (reader : Reader)
    (at_ : side.reader = some reader) (notMoving : ∀ left, reader ≠ .moving left)
    (notPosting : reader ≠ .posting) : side.receive ≠ none := by
  rcases exposed with receiving | ⟨left, moving⟩ | posting
  · exact receiving
  · exact absurd (Option.some.inj (at_.symm.trans moving)) (notMoving left)
  · exact absurd (Option.some.inj (at_.symm.trans posting)) notPosting

structure Buffers (side : ReadSide) : Prop where
  counted : RefPool.Counted side.references side.pool
  intact : ∀ packet ∈ side.packets,
    slice (side.cells packet.buffer) packet.offset packet.length = packet.bytes
  clear : side.Exposed → ∀ packet ∈ side.packets, side.current ≠ some packet.buffer
  newborn : ∀ fresh, side.fresh = some fresh →
    side.current ≠ some fresh ∧ ∀ packet ∈ side.packets, packet.buffer ≠ fresh
  posted : ∀ posted, side.receive = some posted → side.current = some posted.buffer

def holders (side : ReadSide) : Nat :=
  side.handleOpen.toNat + side.receive.isSome.toNat + side.reader.isSome.toNat +
    side.returning + side.packets.countP PostedPacket.holdsSocket + side.others

structure Holders (side : ReadSide) : Prop where
  refcount : side.refcount = side.holders
  attached : (side.reader ≠ none ∨ side.receive ≠ none) → side.current ≠ none
  exclusive : side.reader = none ∨ side.receive = none

private theorem count_toList (object : Option Nat) (buffer : Nat) :
    object.toList.count buffer = if object = some buffer then 1 else 0 := by
  cases object with
  | none => rfl
  | some other =>
      by_cases same : other = buffer
      · subst same
        simp only [Option.toList_some, List.count_cons_self, List.count_nil, if_true]
      · have differs : some other ≠ some buffer := fun equal => same (Option.some.inj equal)
        simp only [Option.toList_some, List.count_cons_of_ne same, List.count_nil, if_neg differs]

theorem references_count (side : ReadSide) (buffer : Nat) :
    side.references.count buffer =
      side.packetsInto buffer + (if side.current = some buffer then 1 else 0) +
        (if side.fresh = some buffer then 1 else 0) := by
  have packets : (side.packets.map PostedPacket.buffer).count buffer =
      side.packetsInto buffer := by
    rw [List.count_eq_countP, List.countP_map]
    unfold packetsInto
    apply List.countP_congr
    intro packet _member
    simp only [Function.comp_apply, beq_iff_eq, decide_eq_true_eq]
  simp only [references, List.count_append, count_toList, packets]

theorem safe_of_invariants {side : ReadSide} (buffers : side.Buffers)
    (holders : side.Holders) : side.Safe := by
  refine ⟨fun buffer => ?_, buffers.intact, buffers.counted.returned, holders.attached⟩
  rw [buffers.counted.ref, references_count]

/-- A read buffer with one reference has no packet in it. -/
theorem clear_of_single {side : ReadSide} (buffers : side.Buffers) (buffer : Nat)
    (isCurrent : side.current = some buffer) (single : side.pool.ref buffer = 1) :
    ∀ packet ∈ side.packets, side.current ≠ some packet.buffer := by
  intro packet member same
  rw [isCurrent, Option.some.injEq] at same
  have counted := buffers.counted.ref buffer
  rw [single, references_count, if_pos isCurrent] at counted
  have some_ : 0 < side.packetsInto buffer :=
    List.countP_pos_iff.mpr ⟨packet, member, decide_eq_true same.symm⟩
  omega

/-! ### Closing and leaving -/

theorem Buffers.close {side : ReadSide} (buffers : side.Buffers) : side.close.Buffers := by
  rcases buffers with ⟨counted, intact, clear, newborn, posted⟩
  unfold ReadSide.close
  split
  · exact ⟨counted, intact, clear, newborn, posted⟩
  · exact ⟨counted, intact, clear, newborn, posted⟩

/-- A reader that is not switching buffers may go to any such position that
exposes the read buffer no more than before. -/
theorem Buffers.setReader {side : ReadSide} (buffers : side.Buffers)
    (reader : Option Reader) (settled : side.fresh = none)
    (stays : ReadSide.fresh { side with reader := reader } = none)
    (covered : ReadSide.Exposed { side with reader := reader } → side.Exposed) :
    Buffers { side with reader := reader } := by
  rcases buffers with ⟨counted, intact, clear, newborn, posted⟩
  refine ⟨?_, intact, fun exposed => clear (covered exposed), fun fresh isFresh => ?_, posted⟩
  · unfold references at counted ⊢
    rw [settled] at counted
    rw [stays]
    exact counted
  · rw [stays] at isFresh
    contradiction

theorem Buffers.leave {side : ReadSide} (buffers : side.Buffers)
    (settled : side.fresh = none) : side.leave.Buffers := by
  have moved : Buffers { side with reader := none } := by
    apply buffers.setReader none settled rfl
    intro given
    rcases given with receiving | ⟨left, moving⟩ | posting
    · exact Or.inl receiving
    · contradiction
    · contradiction
  exact ⟨moved.counted, moved.intact, moved.clear, moved.newborn, moved.posted⟩

theorem Buffers.takeReceive {side : ReadSide} (buffers : side.Buffers) :
    Buffers { side with receive := none } := by
  rcases buffers with ⟨counted, intact, clear, newborn, posted⟩
  refine ⟨counted, intact, ?_, newborn, nofun⟩
  intro given
  rcases given with receiving | moving | posting
  · exact absurd rfl receiving
  · exact clear (Or.inr (Or.inl moving))
  · exact clear (Or.inr (Or.inr posting))

theorem close_fresh (side : ReadSide) : side.close.fresh = side.fresh := by
  unfold close
  split <;> rfl

theorem close_holders (side : ReadSide) (extra : Int)
    (counted : side.refcount = side.holders + extra) :
    side.close.refcount = side.close.holders + extra := by
  unfold close
  split
  · rename_i isOpen
    simp only [holders, isOpen, Bool.toNat_true, Bool.toNat_false] at counted ⊢
    omega
  · exact counted

theorem close_same (side : ReadSide) :
    side.close.current = side.current ∧ side.close.reader = side.reader ∧
      side.close.receive = side.receive := by
  unfold close
  split <;> exact ⟨rfl, rfl, rfl⟩

theorem close_leave_kept {side : ReadSide} (buffers : side.Buffers)
    (settled : side.fresh = none) (attached : side.current ≠ none)
    (counted : side.refcount =
      (side.holders : Int) + (1 - (side.reader.isSome.toNat : Int))) :
    side.close.leave.Buffers ∧ side.close.leave.Holders := by
  obtain ⟨sameCurrent, sameReader, sameReceive⟩ := close_same side
  refine ⟨buffers.close.leave ((close_fresh side).trans settled), ?_, ?_, Or.inl rfl⟩
  · have closed := close_holders side _ counted
    rw [← sameReader] at closed
    simp only [leave, holders, Option.isSome_none, Bool.toNat_false] at closed ⊢
    omega
  · intro _
    exact fun gone => attached (sameCurrent.symm.trans gone)

/-! ### The reader's steps -/

/-- Where the reader stands, what a state owes. -/
def Kept (side : ReadSide) : Prop := side.Buffers ∧ side.Holders

theorem Holders.withReader {side : ReadSide} (holders : side.Holders) (reader next : Reader)
    (at_ : side.reader = some reader) : Holders { side with reader := some next } := by
  rcases holders with ⟨refcount, attached, exclusive⟩
  refine ⟨?_, fun _ => attached (Or.inl (at_ ▸ nofun)), ?_⟩
  · rw [refcount]
    simp only [ReadSide.holders, at_, Option.isSome_some]
  · rcases exclusive with none | idle
    · rw [at_] at none
      contradiction
    · exact Or.inr idle

theorem Holders.idle {side : ReadSide} (holders : side.Holders) (reader : Reader)
    (at_ : side.reader = some reader) : side.receive = none := by
  rcases holders.exclusive with none | idle
  · rw [at_] at none
    contradiction
  · exact idle

theorem fresh_eq_none {side : ReadSide} {reader : Reader} (at_ : side.reader = some reader)
    (settled : ∀ fresh left, reader ≠ .switching fresh left) : side.fresh = none := by
  unfold fresh
  rw [at_]
  cases reader with
  | switching fresh left => exact absurd rfl (settled fresh left)
  | _ => rfl

theorem dispatch_kept (side : ReadSide) (buffer pi ri : Nat) (kept : side.Kept)
    (at_ : side.reader = some (.parsing pi ri)) (isCurrent : side.current = some buffer) :
    (side.dispatch buffer pi ri).Kept := by
  rcases kept with ⟨⟨counted, intact, clear, newborn, posted⟩, held⟩
  have settled : side.fresh = none := fresh_eq_none at_ nofun
  have idle := held.idle _ at_
  have member : buffer ∈ side.references :=
    List.mem_append_left _ (List.mem_append_right _ (isCurrent ▸ List.mem_singleton_self buffer))
  have retained := counted.retain buffer member
  refine ⟨⟨?_, ?_, ?_, nofun, posted⟩, ?_, fun _ => isCurrent ▸ nofun, Or.inr idle⟩
  · apply retained.perm _
    unfold references
    rw [settled]
    simp only [dispatch, fresh, List.map_append, List.map_cons, List.map_nil,
      Option.toList_none, List.append_nil, List.append_assoc, List.singleton_append]
    exact List.perm_middle.symm
  · intro packet isPacket
    rcases List.mem_append.mp isPacket with old | new
    · exact intact packet old
    · rw [List.mem_singleton.mp new]
      rfl
  · intro exposed
    exact absurd idle (exposed.receiving _ rfl nofun nofun)
  · have refcount := held.refcount
    simp only [dispatch, ReadSide.holders, at_, Option.isSome_some, List.countP_append,
      List.countP_singleton, if_true] at refcount ⊢
    omega

theorem turn_kept (side : ReadSide) (buffer pi ri : Nat) (kept : side.Kept)
    (at_ : side.reader = some (.parsing pi ri)) (isCurrent : side.current = some buffer) :
    (side.parseTurn buffer pi ri).Kept := by
  have settled : side.fresh = none := fresh_eq_none at_ nofun
  unfold parseTurn
  split
  · rename_i left _
    have moved := kept.1.setReader (some (.testing left)) settled rfl
      fun exposed => Or.inl (exposed.receiving _ rfl nofun nofun)
    have held := kept.2.withReader _ (.testing left) at_
    exact ⟨⟨moved.counted, moved.intact, moved.clear, moved.newborn, moved.posted⟩,
      ⟨held.refcount, held.attached, held.exclusive⟩⟩
  · have moved := kept.1.setReader (some (.parsing (pi + 2) ri)) settled rfl
      fun exposed => Or.inl (exposed.receiving _ rfl nofun nofun)
    have held := kept.2.withReader _ (.parsing (pi + 2) ri) at_
    exact ⟨⟨moved.counted, moved.intact, moved.clear, moved.newborn, moved.posted⟩,
      ⟨held.refcount, held.attached, held.exclusive⟩⟩
  · exact dispatch_kept side buffer pi ri kept at_ isCurrent
  · apply close_leave_kept kept.1 settled (isCurrent ▸ nofun)
    rw [kept.2.refcount, at_, Option.isSome_some, Bool.toNat_true]
    omega

theorem testRef_kept (side next : ReadSide) (kept : side.Kept)
    (stepped : side.step .testRef = some next) : next.Kept := by
  simp only [step] at stepped
  split at stepped
  · rename_i left buffer at_ isCurrent
    have settled : side.fresh = none := fresh_eq_none at_ nofun
    split at stepped
    · cases stepped
      exact ⟨kept.1.setReader _ settled rfl
        fun exposed => Or.inl (exposed.receiving _ rfl nofun nofun),
        kept.2.withReader _ _ at_⟩
    · rename_i notShared
      cases stepped
      -- One reference is the socket's own, so no packet can be in the way.
      have clear := clear_of_single kept.1 buffer isCurrent (Decidable.not_not.mp notShared)
      rcases kept with ⟨⟨counted, intact, _, _, posted⟩, held⟩
      refine ⟨⟨?_, intact, fun _ => clear, nofun, posted⟩, held.withReader _ _ at_⟩
      unfold references at counted ⊢
      rw [settled] at counted
      exact counted
  · contradiction

theorem copy_kept (side next : ReadSide) (fresh : Nat) (kept : side.Kept)
    (stepped : side.step (.copy fresh) = some next) : next.Kept := by
  simp only [step] at stepped
  split at stepped
  · rename_i left buffer at_ isCurrent
    have settled : side.fresh = none := fresh_eq_none at_ nofun
    split at stepped
    · rename_i free
      cases stepped
      rcases kept with ⟨⟨counted, intact, _, _, posted⟩, held⟩
      have unused := (counted.ref_eq_zero_iff fresh).mp free
      have notCurrent : side.current ≠ some fresh := fun same => unused
        (List.mem_append_left _ (List.mem_append_right _ (same ▸ List.mem_singleton_self fresh)))
      have noPacket : ∀ packet ∈ side.packets, packet.buffer ≠ fresh :=
        fun packet member same => unused (List.mem_append_left _ (List.mem_append_left _
          (List.mem_map.mpr ⟨packet, member, same⟩)))
      have moved := held.withReader _ (.switching fresh left) at_
      refine ⟨⟨?_, ?_, ?_, ?_, posted⟩, ⟨moved.refcount, moved.attached, moved.exclusive⟩⟩
      · apply (counted.acquire fresh free).perm _
        unfold references
        rw [settled]
        simp only [copyLeft, ReadSide.fresh, Option.toList_none, Option.toList_some,
          List.append_nil]
        exact (List.perm_append_singleton _ _).symm
      · intro packet member
        have other := noPacket packet member
        simp only [copyLeft, Function.update_of_ne other]
        exact intact packet member
      · intro exposed
        exact absurd (held.idle _ at_) (exposed.receiving _ rfl nofun nofun)
      · intro other isFresh
        cases isFresh
        exact ⟨notCurrent, noPacket⟩
    · contradiction
  · contradiction

theorem switch_kept (side next : ReadSide) (kept : side.Kept)
    (stepped : side.step .switch = some next) : next.Kept := by
  simp only [step] at stepped
  split at stepped
  · rename_i fresh left buffer at_ isCurrent
    cases stepped
    rcases kept with ⟨⟨counted, intact, _, newborn, _⟩, held⟩
    have isFresh : side.fresh = some fresh := by
      unfold ReadSide.fresh
      rw [at_]
    have idle := held.idle _ at_
    refine ⟨⟨?_, intact, ?_, nofun, ?_⟩, ?_, fun _ => nofun, Or.inr idle⟩
    · apply RefPool.Counted.release (counted.perm _ ?_)
      unfold references
      rw [isCurrent, isFresh]
      simp only [ReadSide.fresh, Option.toList_none, Option.toList_some, List.append_nil,
        List.append_assoc, List.singleton_append]
      exact List.perm_middle
    · intro _ packet member same
      exact (newborn fresh isFresh).2 packet member (Option.some.inj same).symm
    · intro posted receiving
      rw [show side.receive = none from idle] at receiving
      contradiction
    · have refcount := held.refcount
      simp only [ReadSide.holders, at_, Option.isSome_some] at refcount ⊢
      exact refcount
  · contradiction

theorem move_kept (side next : ReadSide) (kept : side.Kept)
    (stepped : side.step .move = some next) : next.Kept := by
  simp only [step] at stepped
  split at stepped
  · rename_i left buffer at_ isCurrent
    cases stepped
    rcases kept with ⟨⟨counted, intact, clear, _, posted⟩, held⟩
    have unread := clear (Or.inr (Or.inl ⟨left, at_⟩))
    have settled : side.fresh = none := fresh_eq_none at_ nofun
    have moved := held.withReader _ .posting at_
    refine ⟨⟨?_, ?_, fun _ => unread, nofun, posted⟩,
      ⟨moved.refcount, moved.attached, moved.exclusive⟩⟩
    · unfold references at counted ⊢
      rw [settled] at counted
      exact counted
    · intro packet member
      have other : packet.buffer ≠ buffer := fun same =>
        unread packet member (isCurrent.trans (congrArg some same.symm))
      simp only [moveLeft, Function.update_of_ne other]
      exact intact packet member
  · contradiction

theorem post_kept (side next : ReadSide) (accepted : Bool) (kept : side.Kept)
    (stepped : side.step (.post accepted) = some next) : next.Kept := by
  simp only [step] at stepped
  split at stepped
  · rename_i buffer at_ isCurrent
    cases stepped
    have settled : side.fresh = none := fresh_eq_none at_ nofun
    unfold postReceive
    split
    · rcases kept with ⟨⟨counted, intact, clear, _, _⟩, held⟩
      have unread := clear (Or.inr (Or.inr at_))
      have posting : Buffers { side with
          receive := some ⟨buffer, side.size buffer,
            dword ((bufferSize : Int) - side.size buffer)⟩, refcount := side.refcount + 1 } := by
        refine ⟨counted, intact, fun _ => unread, fun fresh isFresh => ?_, ?_⟩
        · exact absurd (settled.symm.trans isFresh) nofun
        · intro posted receiving
          cases receiving
          exact isCurrent
      refine ⟨posting.leave settled, ?_, fun _ => isCurrent ▸ nofun, Or.inl rfl⟩
      have refcount := held.refcount
      have idle := held.idle _ at_
      simp only [leave, ReadSide.holders, at_, idle, Option.isSome_some, Option.isSome_none,
        Bool.toNat_true, Bool.toNat_false] at refcount ⊢
      omega
    · apply close_leave_kept kept.1 settled (isCurrent ▸ nofun)
      rw [kept.2.refcount, at_, Option.isSome_some, Bool.toNat_true]
      omega
  · contradiction

/-! ### The network's steps -/

theorem deviceWrites_kept (side next : ReadSide) (bytes : List UInt8) (kept : side.Kept)
    (stepped : side.step (.deviceWrites bytes) = some next) : next.Kept := by
  simp only [step] at stepped
  split at stepped
  · contradiction
  · rename_i posted receiving
    split at stepped
    · cases stepped
      rcases kept with ⟨buffers, held⟩
      have exposed : side.Exposed := Or.inl (receiving ▸ nofun)
      have isCurrent := buffers.posted posted receiving
      refine ⟨⟨buffers.counted, ?_, buffers.clear, buffers.newborn, buffers.posted⟩,
        ⟨held.refcount, held.attached, held.exclusive⟩⟩
      -- While a receive is posted no packet points into its buffer.
      intro packet member
      have other : packet.buffer ≠ posted.buffer := fun same =>
        buffers.clear exposed packet member (isCurrent.trans (congrArg some same.symm))
      simp only [Function.update_of_ne other]
      exact buffers.intact packet member
    · contradiction

theorem takeReceive_kept {side : ReadSide} (kept : side.Kept) (posted : PostedReceive)
    (receiving : side.receive = some posted) :
    Buffers { side with receive := none } ∧ side.reader = none ∧
      ReadSide.fresh { side with receive := none } = none ∧ side.current ≠ none ∧
      side.refcount = (holders { side with receive := none } : Int) + 1 := by
  rcases kept with ⟨buffers, held⟩
  have idle : side.reader = none := by
    rcases held.exclusive with idle | none
    · exact idle
    · rw [receiving] at none
      contradiction
  refine ⟨buffers.takeReceive, idle, ?_, held.attached (Or.inr (receiving ▸ nofun)), ?_⟩
  · unfold fresh
    rw [idle]
  · have refcount := held.refcount
    simp only [holders, receiving, Option.isSome_some, Option.isSome_none, Bool.toNat_true,
      Bool.toNat_false] at refcount ⊢
    omega

theorem received_kept (side next : ReadSide) (dwTransferred : Nat) (kept : side.Kept)
    (stepped : side.step (.received dwTransferred) = some next) : next.Kept := by
  simp only [step] at stepped
  split at stepped
  · rename_i posted buffer receiving isCurrent
    split at stepped
    · cases stepped
      obtain ⟨taken, idle, settled, attached, refcount⟩ :=
        takeReceive_kept kept posted receiving
      have spare : ∀ size : Nat → Nat, side.refcount =
          (holders { side with receive := none, size := size } : Int) +
            (1 - (side.reader.isSome.toNat : Int)) := by
        intro size
        have one : 1 - (side.reader.isSome.toNat : Int) = 1 := by
          rw [idle]
          rfl
        rw [one]
        exact refcount
      unfold onReadCallback
      simp only
      split
      · exact close_leave_kept taken settled attached (spare side.size)
      · split
        · rename_i gone
          have alive : 0 < side.refcount := by omega
          exact absurd alive (Int.not_lt.mpr gone)
        · split
          · have sized : Buffers { side with
                receive := none
                size := Function.update side.size buffer (side.size buffer + dwTransferred) } :=
              ⟨taken.counted, taken.intact, taken.clear, taken.newborn, taken.posted⟩
            exact close_leave_kept sized settled attached (spare _)
          · have parsing : Buffers { side with
                receive := none
                reader := some (.parsing 0 (side.size buffer + dwTransferred)) } :=
              taken.setReader _ settled rfl
                fun exposed => Or.inl (exposed.receiving _ rfl nofun nofun)
            refine ⟨⟨parsing.counted, parsing.intact, parsing.clear, parsing.newborn,
              parsing.posted⟩, ?_, fun _ => attached, Or.inr rfl⟩
            simp only [holders, idle, Option.isSome_some, Option.isSome_none, Bool.toNat_true,
              Bool.toNat_false] at refcount ⊢
            omega
    · contradiction
  · contradiction

theorem receiveFailed_kept (side next : ReadSide) (kept : side.Kept)
    (stepped : side.step .receiveFailed = some next) : next.Kept := by
  simp only [step] at stepped
  split at stepped
  · contradiction
  · rename_i posted receiving
    cases stepped
    obtain ⟨taken, idle, settled, attached, refcount⟩ := takeReceive_kept kept posted receiving
    have one : 1 - (side.reader.isSome.toNat : Int) = 1 := by
      rw [idle]
      rfl
    apply close_leave_kept taken settled attached
    rw [one]
    exact refcount

/-! ### The steps of handlers and other users -/

theorem split_at {α : Type} (items : List α) (index : Nat) (item : α)
    (found : items[index]? = some item) :
    ∃ before after, items = before ++ item :: after ∧
      items.eraseIdx index = before ++ after ∧
      ∀ other, items.set index other = before ++ other :: after := by
  obtain ⟨inside, same⟩ := List.getElem?_eq_some_iff.mp found
  refine ⟨items.take index, items.drop (index + 1), ?_, List.eraseIdx_eq_take_drop_succ _ _, ?_⟩
  · rw [← same, List.getElem_cons_drop, List.take_append_drop]
  · intro other
    rw [List.set_eq_take_append_cons_drop, if_pos inside]

theorem others_sublist {α : Type} (before after : List α) (item : α) :
    (before ++ after).Sublist (before ++ item :: after) :=
  (List.sublist_cons_self item after).append_left before

theorem mem_replaced {α β : Type} (view : α → β) (before after : List α) (item next : α)
    (same : view next = view item) :
    ∀ other ∈ before ++ next :: after, ∃ old ∈ before ++ item :: after, view old = view other := by
  intro other member
  have views : (before ++ next :: after).map view = (before ++ item :: after).map view := by
    rw [List.map_append, List.map_append, List.map_cons, List.map_cons, same]
  exact List.mem_map.mp (views ▸ List.mem_map_of_mem member)

theorem releaseSocket_kept (side next : ReadSide) (packet : Nat) (kept : side.Kept)
    (stepped : side.step (.releaseSocket packet) = some next) : next.Kept := by
  simp only [step] at stepped
  split at stepped
  · contradiction
  · rename_i posted found
    split at stepped
    · rename_i holds
      cases stepped
      rcases kept with ⟨⟨counted, intact, clear, newborn, attachedTo⟩, held⟩
      obtain ⟨before, after, packets, _, replaced⟩ := split_at side.packets packet posted found
      rw [replaced { posted with holdsSocket := false }]
      -- The packet stays where it is, with the same buffer and bytes.
      have member : ∀ other ∈ before ++ { posted with holdsSocket := false } :: after,
          ∃ old ∈ side.packets, old.buffer = other.buffer ∧ old.offset = other.offset ∧
            old.length = other.length ∧ old.bytes = other.bytes := by
        intro other isOther
        obtain ⟨old, isOld, same⟩ := mem_replaced
          (fun packet => (packet.buffer, packet.offset, packet.length, packet.bytes))
          before after posted { posted with holdsSocket := false } rfl other isOther
        simp only [Prod.mk.injEq] at same
        exact ⟨old, packets ▸ isOld, same⟩
      refine ⟨⟨?_, ?_, ?_, ?_, attachedTo⟩, ?_, held.attached, held.exclusive⟩
      · unfold references at counted ⊢
        rw [packets, List.map_append, List.map_cons] at counted
        rw [List.map_append, List.map_cons]
        exact counted
      · intro other isOther
        obtain ⟨old, isOld, buffer, offset, length, bytes⟩ := member other isOther
        have same := intact old isOld
        rw [buffer, offset, length, bytes] at same
        exact same
      · intro exposed other isOther
        obtain ⟨old, isOld, buffer, _⟩ := member other isOther
        exact buffer ▸ clear exposed old isOld
      · intro fresh isFresh
        refine ⟨(newborn fresh isFresh).1, fun other isOther => ?_⟩
        obtain ⟨old, isOld, buffer, _⟩ := member other isOther
        exact buffer ▸ (newborn fresh isFresh).2 old isOld
      · have refcount := held.refcount
        simp only [holders, packets, List.countP_append, List.countP_cons, holds, if_true,
          Bool.false_eq_true, if_false] at refcount ⊢
        omega
    · contradiction

theorem releaseBuffer_kept (side next : ReadSide) (packet : Nat) (kept : side.Kept)
    (stepped : side.step (.releaseBuffer packet) = some next) : next.Kept := by
  simp only [step] at stepped
  split at stepped
  · contradiction
  · rename_i posted found
    split at stepped
    · contradiction
    · rename_i released
      cases stepped
      rcases kept with ⟨⟨counted, intact, clear, newborn, attachedTo⟩, held⟩
      obtain ⟨before, after, packets, erased, _⟩ := split_at side.packets packet posted found
      rw [erased]
      have member : ∀ other ∈ before ++ after, other ∈ side.packets := fun _ isOther =>
        packets ▸ (others_sublist before after posted).subset isOther
      refine ⟨⟨?_, fun other isOther => intact other (member other isOther),
        fun exposed other isOther => clear exposed other (member other isOther), ?_, attachedTo⟩,
        ?_, held.attached, held.exclusive⟩
      · apply RefPool.Counted.release (counted.perm _ ?_)
        unfold references
        rw [packets, List.map_append, List.map_cons, List.map_append]
        simp only [List.append_assoc, List.cons_append]
        exact List.perm_middle
      · intro fresh isFresh
        exact ⟨(newborn fresh isFresh).1,
          fun other isOther => (newborn fresh isFresh).2 other (member other isOther)⟩
      · have refcount := held.refcount
        simp only [holders, packets, List.countP_append, List.countP_cons, released,
          Bool.false_eq_true, if_false] at refcount ⊢
        omega

theorem closeSocket_kept (side next : ReadSide) (kept : side.Kept)
    (stepped : side.step .closeSocket = some next) : next.Kept := by
  simp only [step] at stepped
  split at stepped
  · contradiction
  · cases stepped
    obtain ⟨sameCurrent, sameReader, sameReceive⟩ := close_same side
    have refcount := close_holders side 0 (by rw [kept.2.refcount, Int.add_zero])
    refine ⟨kept.1.close, ?_, ?_, ?_⟩
    · rw [refcount, Int.add_zero]
    · rw [sameCurrent, sameReader, sameReceive]
      exact kept.2.attached
    · rw [sameReader, sameReceive]
      exact kept.2.exclusive

theorem destroy_kept (side next : ReadSide) (kept : side.Kept)
    (stepped : side.step .destroy = some next) : next.Kept := by
  simp only [step] at stepped
  split at stepped
  · contradiction
  · rename_i buffer isCurrent
    split at stepped
    · rename_i zero
      cases stepped
      rcases kept with ⟨⟨counted, intact, _, newborn, _⟩, held⟩
      -- Without references nobody serves or awaits a receive.
      have refcount := held.refcount
      have unread : side.reader = none := by
        cases at_ : side.reader with
        | none => rfl
        | some reader =>
            simp only [holders, at_, Option.isSome_some, Bool.toNat_true] at refcount
            omega
      have unposted : side.receive = none := by
        cases receiving : side.receive with
        | none => rfl
        | some posted =>
            simp only [holders, receiving, Option.isSome_some, Bool.toNat_true] at refcount
            omega
      refine ⟨⟨?_, intact, fun _ _ _ => nofun, fun fresh isFresh => ?_, ?_⟩, refcount, ?_,
        Or.inl unread⟩
      · apply RefPool.Counted.release (counted.perm _ ?_)
        unfold references
        rw [isCurrent]
        simp only [Option.toList_some, Option.toList_none, List.append_nil, List.append_assoc,
          List.singleton_append]
        exact List.perm_middle
      · exact ⟨nofun, (newborn fresh isFresh).2⟩
      · intro posted receiving
        exact absurd (unposted.symm.trans receiving) nofun
      · intro given
        rcases given with reading | receiving
        · exact absurd unread reading
        · exact absurd unposted receiving
    · contradiction

theorem reuse_kept (side next : ReadSide) (buffer : Nat) (cells : Nat → UInt8)
    (kept : side.Kept) (stepped : side.step (.reuse buffer cells) = some next) :
    next.Kept := by
  simp only [step] at stepped
  split at stepped
  · rename_i free
    cases stepped
    rcases kept with ⟨⟨counted, intact, clear, newborn, attachedTo⟩, held⟩
    refine ⟨⟨counted, ?_, clear, newborn, attachedTo⟩,
      ⟨held.refcount, held.attached, held.exclusive⟩⟩
    intro packet member
    have other : packet.buffer ≠ buffer := by
      intro same
      apply (counted.ref_eq_zero_iff buffer).mp free
      exact List.mem_append_left _ (List.mem_append_left _
        (List.mem_map.mpr ⟨packet, member, same⟩))
    simp only [Function.update_of_ne other]
    exact intact packet member
  · contradiction

/-- Callbacks and outside holders may come and go as long as the count follows. -/
theorem Kept.recounted {side : ReadSide} (kept : side.Kept) (returning others : Nat)
    (refcount : Int)
    (follows : refcount + side.returning + side.others =
      side.refcount + returning + others) :
    Kept { side with returning := returning, others := others, refcount := refcount } := by
  rcases kept with ⟨⟨counted, intact, clear, newborn, posted⟩, balanced, attached, exclusive⟩
  refine ⟨⟨counted, intact, clear, newborn, posted⟩, ?_, attached, exclusive⟩
  simp only [holders] at balanced ⊢
  omega

theorem step_kept (side next : ReadSide) (event : ReadEvent) (kept : side.Kept)
    (stepped : side.step event = some next) : next.Kept := by
  cases event with
  | deviceWrites bytes => exact deviceWrites_kept side next bytes kept stepped
  | received dwTransferred => exact received_kept side next dwTransferred kept stepped
  | receiveFailed => exact receiveFailed_kept side next kept stepped
  | turn =>
      simp only [step] at stepped
      split at stepped
      · rename_i pi ri buffer at_ isCurrent
        cases stepped
        exact turn_kept side buffer pi ri kept at_ isCurrent
      · contradiction
  | testRef => exact testRef_kept side next kept stepped
  | copy fresh => exact copy_kept side next fresh kept stepped
  | switch => exact switch_kept side next kept stepped
  | move => exact move_kept side next kept stepped
  | post accepted => exact post_kept side next accepted kept stepped
  | releaseSocket packet => exact releaseSocket_kept side next packet kept stepped
  | releaseBuffer packet => exact releaseBuffer_kept side next packet kept stepped
  | closeSocket => exact closeSocket_kept side next kept stepped
  | destroy => exact destroy_kept side next kept stepped
  | reuse buffer cells => exact reuse_kept side next buffer cells kept stepped
  | returned =>
      simp only [step] at stepped
      split at stepped
      · contradiction
      · cases stepped
        exact kept.recounted _ _ _ (by omega)
  | addRef =>
      simp only [step] at stepped
      split at stepped
      · contradiction
      · cases stepped
        exact kept.recounted _ _ _ (by omega)
  | releaseRef =>
      simp only [step] at stepped
      split at stepped
      · contradiction
      · cases stepped
        exact kept.recounted _ _ _ (by omega)

theorem start_kept (packetLen : Int) (cells : Nat → Nat → UInt8) :
    (start packetLen cells).Kept := by
  have empty : RefPool.Counted ([] : List Nat) ⟨fun _ => 0, fun _ => 0, fun _ => 0⟩ :=
    ⟨fun _ => rfl, fun _ => rfl⟩
  refine ⟨⟨empty.acquire 0 rfl, List.forall_mem_nil _, fun _ => List.forall_mem_nil _,
    nofun, nofun⟩, rfl, fun _ => nofun, Or.inr rfl⟩

/-- In every interleaving: counts are the references there are, packets keep
the bytes they were parsed with, and each buffer taken from the pool goes back
once, when nothing refers to it. -/
theorem read_buffers_safe (packetLen : Int) (cells : Nat → Nat → UInt8)
    (events : List ReadEvent) :
    machine.Throughout Safe (start packetLen cells) events :=
  machine.throughout_of_guarded Kept Safe (fun _ _ => True)
    (fun side event next kept _ stepped => step_kept side next event kept stepped)
    (fun _ kept => safe_of_invariants kept.1 kept.2) events _ (start_kept packetLen cells)
    (machine.guarded_of_step _ (fun _ _ _ _ => trivial) events _)

end ReadSide

end AuthServer
