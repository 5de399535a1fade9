/-
The pools of `CIOBuffer` and of `CPacketServer`.

Objects that are given back wait in sixteen lists.  `Alloc` and `Free` first move a
counter, whose low bits pick a slot, and then work on the slot under its lock; other
threads move in between.  The link of a free object is a member that its users write
as they like while they have it: `m_pNext` of a buffer, `m_pSocket` of a packet.
`status` records who has an object.
-/

import AuthServer.Lib.EventRuns
import AuthServer.Lib.FreeLists

set_option autoImplicit false

namespace AuthServer

open FreeLists

inductive SlotCall (Node : Type) where
  | allocating (slot : Fin 16)
  | creating
  | returning (node : Node)
  | freeing (slot : Fin 16) (node : Node)

def SlotCall.node {Node : Type} : SlotCall Node → Option Node
  | .allocating _ | .creating => none
  | .returning node | .freeing _ node => some node

/-- Nobody has made the object yet, a call of `Alloc` or `Free` has it, a caller
has it, or it waits to be allocated again. -/
inductive ObjectStatus where
  | unborn
  | held
  | live
  | freed
  deriving DecidableEq

structure SlotPool (Thread Node : Type) where
  slots : Fin 16 → Option Node
  link : Node → Option Node
  alloc : UInt32
  free : UInt32
  calls : Thread → Option (SlotCall Node)
  status : Node → ObjectStatus

inductive SlotEvent (Thread Node : Type) where
  | alloc (thread : Thread)
  | allocSlot (thread : Thread)
  | create (thread : Thread) (node : Node)
  | allocReturn (thread : Thread)
  | free (thread : Thread) (node : Node)
  | freeSlot (thread : Thread)
  | write (node : Node) (value : Option Node)

theorem lowBits_lt (counter : UInt32) : (counter &&& 15).toNat < 16 := by
  rw [UInt32.toNat_and]
  exact Nat.lt_succ_of_le Nat.and_le_right

def slotOf (counter : UInt32) : Fin 16 := ⟨(counter &&& 15).toNat, lowBits_lt counter⟩

namespace SlotPool

variable {Thread Node : Type}

/-- Objects that are not made yet have whatever their memory holds. -/
def start (link : Node → Option Node) : SlotPool Thread Node where
  slots := fun _ => none
  link := link
  alloc := 0xFFFFFFFF
  free := 0
  calls := fun _ => none
  status := fun _ => .unborn

section Operations

variable [DecidableEq Thread] [DecidableEq Node]

def setCall (pool : SlotPool Thread Node) (thread : Thread) (call : Option (SlotCall Node)) :
    Thread → Option (SlotCall Node) :=
  Function.update pool.calls thread call

def callAlloc (pool : SlotPool Thread Node) (thread : Thread) : SlotPool Thread Node :=
  { pool with
    alloc := pool.alloc + 1
    calls := pool.setCall thread (some (.allocating (slotOf (pool.alloc + 1)))) }

def allocSlot (pool : SlotPool Thread Node) (thread : Thread) (slot : Fin 16) :
    SlotPool Thread Node :=
  match pool.slots slot with
  | some node =>
      { pool with
        slots := Function.update pool.slots slot (pool.link node)
        calls := pool.setCall thread (some (.returning node)) }
  | none => { pool with calls := pool.setCall thread (some .creating) }

/-- `new`, which gives an object that is nowhere in use. -/
def create (pool : SlotPool Thread Node) (thread : Thread) (node : Node) : SlotPool Thread Node :=
  { pool with calls := pool.setCall thread (some (.returning node)) }

/-- The end of `Alloc`: `CIOBuffer` clears the link, `CPacketServer` leaves it. -/
def allocReturn (clears : Bool) (pool : SlotPool Thread Node) (thread : Thread) (node : Node) :
    SlotPool Thread Node :=
  { pool with
    link := if clears then Function.update pool.link node none else pool.link
    calls := pool.setCall thread none }

def callFree (pool : SlotPool Thread Node) (thread : Thread) (node : Node) :
    SlotPool Thread Node :=
  { pool with
    free := pool.free - 1
    calls := pool.setCall thread (some (.freeing (slotOf (pool.free - 1)) node)) }

def freeSlot (pool : SlotPool Thread Node) (thread : Thread) (slot : Fin 16) (node : Node) :
    SlotPool Thread Node :=
  { pool with
    link := Function.update pool.link node (pool.slots slot)
    slots := Function.update pool.slots slot (some node)
    calls := pool.setCall thread none }

def mark (pool : SlotPool Thread Node) (node : Node) (status : ObjectStatus) :
    SlotPool Thread Node :=
  { pool with status := Function.update pool.status node status }

/-- What the call of the thread has, the thread has in its hands. -/
def markHeld (pool : SlotPool Thread Node) (thread : Thread) : SlotPool Thread Node :=
  match (pool.calls thread).bind SlotCall.node with
  | some node => pool.mark node .held
  | none => pool

/-- One step of a thread, and who has the object after it. -/
def step (clears : Bool) (pool : SlotPool Thread Node) :
    SlotEvent Thread Node → Option (SlotPool Thread Node)
  | .alloc thread =>
      match pool.calls thread with
      | none => some (pool.callAlloc thread)
      | some _ => none
  | .allocSlot thread =>
      match pool.calls thread with
      | some (.allocating slot) => some ((pool.allocSlot thread slot).markHeld thread)
      | _ => none
  | .create thread node =>
      match pool.calls thread with
      | some .creating =>
          if pool.status node = .unborn then some ((pool.create thread node).markHeld thread)
          else none
      | _ => none
  | .allocReturn thread =>
      match pool.calls thread with
      | some (.returning node) => some ((pool.allocReturn clears thread node).mark node .live)
      | _ => none
  | .free thread node =>
      match pool.calls thread with
      | none =>
          if pool.status node = .live then some ((pool.callFree thread node).markHeld thread)
          else none
      | some _ => none
  | .freeSlot thread =>
      match pool.calls thread with
      | some (.freeing slot node) => some ((pool.freeSlot thread slot node).mark node .freed)
      | _ => none
  | .write node value =>
      if pool.status node = .live then
        some { pool with link := Function.update pool.link node value }
      else none

def machine (clears : Bool) : EventRuns.Machine (SlotPool Thread Node) (SlotEvent Thread Node) :=
  ⟨step clears⟩

omit [DecidableEq Node] in
theorem setCall_node (pool : SlotPool Thread Node) (thread : Thread)
    (call : Option (SlotCall Node)) :
    (pool.setCall thread call thread).bind SlotCall.node = call.bind SlotCall.node :=
  congrArg (fun call => call.bind SlotCall.node) (Function.update_self thread call pool.calls)

omit [DecidableEq Thread] in
theorem markHeld_some (pool : SlotPool Thread Node) (thread : Thread) (node : Node)
    (has : (pool.calls thread).bind SlotCall.node = some node) :
    pool.markHeld thread = pool.mark node .held := by
  rw [markHeld, has]

theorem markHeld_create (pool : SlotPool Thread Node) (thread : Thread) (node : Node) :
    (pool.create thread node).markHeld thread = (pool.create thread node).mark node .held :=
  markHeld_some _ thread node (pool.setCall_node thread (some (.returning node)))

theorem markHeld_callFree (pool : SlotPool Thread Node) (thread : Thread) (node : Node) :
    (pool.callFree thread node).markHeld thread = (pool.callFree thread node).mark node .held :=
  markHeld_some _ thread node (pool.setCall_node thread (some (.freeing _ node)))

theorem allocSlot_found (pool : SlotPool Thread Node) (thread : Thread) (slot : Fin 16)
    (node : Node) (head : pool.slots slot = some node) :
    (pool.allocSlot thread slot).markHeld thread =
      { pool with
        slots := Function.update pool.slots slot (pool.link node)
        status := Function.update pool.status node .held
        calls := pool.setCall thread (some (.returning node)) } := by
  unfold allocSlot
  rw [head]
  exact markHeld_some _ thread node (pool.setCall_node thread (some (.returning node)))

theorem allocSlot_empty (pool : SlotPool Thread Node) (thread : Thread) (slot : Fin 16)
    (empty : pool.slots slot = none) :
    (pool.allocSlot thread slot).markHeld thread =
      { pool with calls := pool.setCall thread (some .creating) } := by
  unfold allocSlot markHeld
  rw [empty]
  dsimp only
  rw [pool.setCall_node thread (some .creating)]
  rfl

end Operations

/-- The lists are lists, apart from each other, and hold no live object and every
freed one, and what `Alloc` is about to return is not live. -/
structure Sound (pool : SlotPool Thread Node) : Prop where
  freeLists : ∃ lists, Stands pool.link pool.slots lists ∧
    (∀ node, Listed lists node → pool.status node ≠ .live) ∧
    ∀ node, pool.status node = .freed → Listed lists node
  returned : ∀ thread node, pool.calls thread = some (.returning node) → pool.status node ≠ .live

/-! ### Who has what -/

def holding (pool : SlotPool Thread Node) : Thread → Option Node :=
  (fun call => call.bind SlotCall.node) ∘ pool.calls

/-- Objects in the hands of threads: each in those of one. -/
structure Held (holding : Thread → Option Node) (status : Node → ObjectStatus) : Prop where
  marked : ∀ thread node, holding thread = some node → status node = .held
  sole : ∀ thread other node, holding thread = some node → holding other = some node →
    thread = other

structure Kept (pool : SlotPool Thread Node) : Prop where
  freeLists : ∃ lists, Stands pool.link pool.slots lists ∧
    ∀ node, Listed lists node ↔ pool.status node = .freed
  held : Held pool.holding pool.status

variable {holding : Thread → Option Node} {status : Node → ObjectStatus}

theorem update_some_cases [DecidableEq Thread] (thread other : Thread) (node kept : Node)
    (has : Function.update holding thread (some node) other = some kept) :
    other = thread ∧ kept = node ∨ other ≠ thread ∧ holding other = some kept := by
  by_cases here : other = thread
  · subst here
    rw [Function.update_self] at has
    exact Or.inl ⟨rfl, (Option.some.inj has).symm⟩
  · rw [Function.update_of_ne here] at has
    exact Or.inr ⟨here, has⟩

theorem Held.grab [DecidableEq Thread] [DecidableEq Node] (held : Held holding status)
    (thread : Thread) (node : Node) (nobody : status node ≠ .held) :
    Held (Function.update holding thread (some node)) (Function.update status node .held) := by
  have different : ∀ other kept, holding other = some kept → kept ≠ node := by
    rintro other kept has rfl
    exact nobody (held.marked other kept has)
  constructor
  · intro other kept has
    rcases update_some_cases thread other node kept has with ⟨_, rfl⟩ | ⟨_, old⟩
    · exact Function.update_self kept _ status
    · rw [Function.update_of_ne (different other kept old)]
      exact held.marked other kept old
  · intro first second kept atFirst atSecond
    rcases update_some_cases thread first node kept atFirst with ⟨here, rfl⟩ | ⟨_, old⟩
    · rcases update_some_cases thread second kept kept atSecond with ⟨there, _⟩ | ⟨_, old⟩
      · rw [here, there]
      · exact absurd rfl (different second kept old)
    · rcases update_some_cases thread second node kept atSecond with ⟨_, same⟩ | ⟨_, later⟩
      · exact absurd same (different first kept old)
      · exact held.sole first second kept old later

theorem Held.drop [DecidableEq Thread] [DecidableEq Node] (held : Held holding status)
    (thread : Thread) (node : Node) (next : ObjectStatus) (has : holding thread = some node) :
    Held (Function.update holding thread none) (Function.update status node next) := by
  have old : ∀ other kept, Function.update holding thread none other = some kept →
      other ≠ thread ∧ holding other = some kept := by
    intro other kept still
    by_cases here : other = thread
    · subst here
      rw [Function.update_self] at still
      cases still
    · rw [Function.update_of_ne here] at still
      exact ⟨here, still⟩
  constructor
  · intro other kept still
    obtain ⟨elsewhere, has_⟩ := old other kept still
    rw [Function.update_of_ne]
    · exact held.marked other kept has_
    · rintro rfl
      exact elsewhere (held.sole other thread kept has_ has)
  · intro first second kept atFirst atSecond
    exact held.sole first second kept (old first kept atFirst).2 (old second kept atSecond).2

theorem holding_setCall [DecidableEq Thread] (pool : SlotPool Thread Node) (thread : Thread)
    (call : Option (SlotCall Node)) :
    (fun call => call.bind SlotCall.node) ∘ pool.setCall thread call =
      Function.update pool.holding thread (call.bind SlotCall.node) :=
  Function.comp_update _ _ _ _

theorem holding_of_call (pool : SlotPool Thread Node) (thread : Thread)
    (call : Option (SlotCall Node)) (at_ : pool.calls thread = call) :
    pool.holding thread = call.bind SlotCall.node :=
  congrArg (fun call => call.bind SlotCall.node) at_

theorem holding_idle [DecidableEq Thread] (pool : SlotPool Thread Node) (thread : Thread)
    (before after : Option (SlotCall Node)) (at_ : pool.calls thread = before)
    (nothing : before.bind SlotCall.node = none) (still : after.bind SlotCall.node = none) :
    (fun call => call.bind SlotCall.node) ∘ pool.setCall thread after = pool.holding := by
  rw [holding_setCall, still, ← nothing, ← pool.holding_of_call thread before at_]
  exact Function.update_eq_self thread pool.holding

theorem freed_update_iff [DecidableEq Node] (node other : Node) (next : ObjectStatus)
    (before : status node ≠ .freed) (after : next ≠ .freed) :
    Function.update status node next other = .freed ↔ status other = .freed := by
  by_cases same : other = node
  · subst same
    rw [Function.update_self]
    exact ⟨fun freed => absurd freed after, fun freed => absurd freed before⟩
  · rw [Function.update_of_ne same]

theorem Kept.sound {pool : SlotPool Thread Node} (kept : pool.Kept) : pool.Sound := by
  obtain ⟨⟨lists, stands, listed⟩, held⟩ := kept
  refine ⟨⟨lists, stands, fun node inList live => ?_, fun node => (listed node).mpr⟩,
    fun thread node returning live => ?_⟩
  · rw [(listed node).mp inList] at live
    cases live
  · rw [held.marked thread node (pool.holding_of_call thread _ returning)] at live
    cases live

theorem outside_of_status {pool : SlotPool Thread Node} {lists : Fin 16 → List Node} (node : Node)
    (listed : ∀ node, Listed lists node ↔ pool.status node = .freed)
    (notFreed : pool.status node ≠ .freed) : ¬ Listed lists node :=
  fun inList => notFreed ((listed node).mp inList)

theorem start_kept (link : Node → Option Node) : (start link : SlotPool Thread Node).Kept := by
  refine ⟨⟨fun _ => [], stands_empty link, fun node => ?_⟩, nofun, nofun⟩
  exact ⟨fun ⟨_, member⟩ => absurd member List.not_mem_nil, nofun⟩

theorem callAlloc_kept [DecidableEq Thread] {pool : SlotPool Thread Node} (kept : pool.Kept)
    (thread : Thread) (idle : pool.calls thread = none) : (pool.callAlloc thread).Kept := by
  refine ⟨kept.freeLists, ?_⟩
  rw [holding, callAlloc, holding_idle pool thread none _ idle rfl rfl]
  exact kept.held

theorem write_kept [DecidableEq Node] {pool : SlotPool Thread Node} (kept : pool.Kept)
    (node : Node) (value : Option Node) (live : pool.status node = .live) :
    Kept { pool with link := Function.update pool.link node value } := by
  obtain ⟨⟨lists, stands, listed⟩, held⟩ := kept
  exact ⟨⟨lists, stands.write node value (outside_of_status node listed (live ▸ nofun)), listed⟩,
    held⟩

section Steps

variable [DecidableEq Thread] [DecidableEq Node] {pool : SlotPool Thread Node}

theorem allocSlot_kept (kept : pool.Kept) (thread : Thread) (slot : Fin 16)
    (at_ : pool.calls thread = some (.allocating slot)) :
    ((pool.allocSlot thread slot).markHeld thread).Kept := by
  obtain ⟨⟨lists, stands, listed⟩, held⟩ := kept
  cases first : pool.slots slot with
  | some node =>
    rw [pool.allocSlot_found thread slot node first]
    obtain ⟨rest, list, popped⟩ := stands.pop slot node first
    have freed : pool.status node = .freed :=
      (listed node).mp ⟨slot, list ▸ List.mem_cons_self⟩
    refine ⟨⟨_, popped, fun other => ?_⟩, ?_⟩
    · rw [stands.listed_pop_iff slot node other rest list, listed other]
      dsimp only
      by_cases same : other = node
      · subst same
        rw [Function.update_self]
        exact ⟨fun both => absurd rfl both.2, nofun⟩
      · rw [Function.update_of_ne same]
        exact ⟨fun both => both.1, fun isFreed => ⟨isFreed, same⟩⟩
    · rw [holding, holding_setCall]
      refine held.grab thread node ?_
      rw [freed]
      exact nofun
  | none =>
    rw [pool.allocSlot_empty thread slot first]
    refine ⟨⟨lists, stands, listed⟩, ?_⟩
    rw [holding, holding_idle pool thread _ _ at_ rfl rfl]
    exact held

theorem create_kept (kept : pool.Kept) (thread : Thread) (node : Node)
    (unborn : pool.status node = .unborn) :
    ((pool.create thread node).markHeld thread).Kept := by
  rw [markHeld_create]
  obtain ⟨⟨lists, stands, listed⟩, held⟩ := kept
  refine ⟨⟨lists, stands, fun other => ?_⟩, ?_⟩
  · rw [listed other, mark, create, freed_update_iff node other .held (unborn ▸ nofun) nofun]
  · rw [holding, mark, create, holding_setCall]
    exact held.grab thread node (unborn ▸ nofun)

theorem callFree_kept (kept : pool.Kept) (thread : Thread) (node : Node)
    (live : pool.status node = .live) : ((pool.callFree thread node).markHeld thread).Kept := by
  rw [markHeld_callFree]
  obtain ⟨⟨lists, stands, listed⟩, held⟩ := kept
  refine ⟨⟨lists, stands, fun other => ?_⟩, ?_⟩
  · rw [listed other, mark, callFree, freed_update_iff node other .held (live ▸ nofun) nofun]
  · rw [holding, mark, callFree, holding_setCall]
    exact held.grab thread node (live ▸ nofun)

theorem allocReturn_kept (clears : Bool) (kept : pool.Kept) (thread : Thread) (node : Node)
    (at_ : pool.calls thread = some (.returning node)) :
    ((pool.allocReturn clears thread node).mark node .live).Kept := by
  obtain ⟨⟨lists, stands, listed⟩, held⟩ := kept
  have has := pool.holding_of_call thread _ at_
  have mine := held.marked thread node has
  refine ⟨⟨lists, ?_, fun other => ?_⟩, ?_⟩
  · cases clears with
    | false => exact stands
    | true => exact stands.write node none (outside_of_status node listed (mine ▸ nofun))
  · rw [listed other, mark, allocReturn, freed_update_iff node other .live (mine ▸ nofun) nofun]
  · rw [holding, mark, allocReturn, holding_setCall]
    exact held.drop thread node .live has

theorem freeSlot_kept (kept : pool.Kept) (thread : Thread) (slot : Fin 16) (node : Node)
    (at_ : pool.calls thread = some (.freeing slot node)) :
    ((pool.freeSlot thread slot node).mark node .freed).Kept := by
  obtain ⟨⟨lists, stands, listed⟩, held⟩ := kept
  have has := pool.holding_of_call thread _ at_
  have mine := held.marked thread node has
  refine ⟨⟨_, stands.push slot node (outside_of_status node listed (mine ▸ nofun)),
    fun other => ?_⟩, ?_⟩
  · rw [listed_push_iff slot node other, listed other, mark, freeSlot]
    dsimp only
    by_cases same : other = node
    · subst same
      rw [Function.update_self]
      exact ⟨fun _ => rfl, fun _ => Or.inl rfl⟩
    · rw [Function.update_of_ne same]
      exact ⟨fun either => either.resolve_left same, Or.inr⟩
  · rw [holding, mark, freeSlot, holding_setCall]
    exact held.drop thread node .freed has

theorem step_kept (clears : Bool) (pool : SlotPool Thread Node) (event : SlotEvent Thread Node)
    (next : SlotPool Thread Node) (kept : pool.Kept)
    (stepped : (machine clears).step pool event = some next) : next.Kept := by
  cases event with
  | alloc thread =>
      simp only [machine, step] at stepped
      split at stepped
      · rename_i idle
        cases stepped
        exact callAlloc_kept kept thread idle
      · contradiction
  | allocSlot thread =>
      simp only [machine, step] at stepped
      split at stepped
      · rename_i slot at_
        cases stepped
        exact allocSlot_kept kept thread slot at_
      · contradiction
  | create thread node =>
      simp only [machine, step] at stepped
      split at stepped
      · split at stepped
        · rename_i unborn
          cases stepped
          exact create_kept kept thread node unborn
        · contradiction
      · contradiction
  | allocReturn thread =>
      simp only [machine, step] at stepped
      split at stepped
      · rename_i node at_
        cases stepped
        exact allocReturn_kept clears kept thread node at_
      · contradiction
  | free thread node =>
      simp only [machine, step] at stepped
      split at stepped
      · split at stepped
        · rename_i live
          cases stepped
          exact callFree_kept kept thread node live
        · contradiction
      · contradiction
  | freeSlot thread =>
      simp only [machine, step] at stepped
      split at stepped
      · rename_i slot node at_
        cases stepped
        exact freeSlot_kept kept thread slot node at_
      · contradiction
  | write node value =>
      simp only [machine, step] at stepped
      split at stepped
      · rename_i live
        cases stepped
        exact write_kept kept node value live
      · contradiction

theorem throughout_sound (clears : Bool) (link : Node → Option Node)
    (events : List (SlotEvent Thread Node)) :
    (machine clears).Throughout Sound (start link) events :=
  (machine clears).throughout_of_guarded Kept Sound (fun _ _ => True)
    (fun pool event next kept _ stepped => step_kept clears pool event next kept stepped)
    (fun _ kept => kept.sound) events _ (start_kept link)
    ((machine clears).guarded_of_step _ (fun _ _ _ _ => trivial) events _)

end Steps

end SlotPool

section Pools

variable {Thread Node : Type} [DecidableEq Thread] [DecidableEq Node]

def CIOBuffer.pool : EventRuns.Machine (SlotPool Thread Node) (SlotEvent Thread Node) :=
  SlotPool.machine true

def CPacketServer.pool : EventRuns.Machine (SlotPool Thread Node) (SlotEvent Thread Node) :=
  SlotPool.machine false

/-- Whatever threads allocate, free and write in whatever order, the lists stay
lists, nothing live is in them or allocated again, and nothing freed is lost. -/
theorem pools_sound (link : Node → Option Node) (events : List (SlotEvent Thread Node)) :
    CIOBuffer.pool.Throughout SlotPool.Sound (SlotPool.start link) events ∧
      CPacketServer.pool.Throughout SlotPool.Sound (SlotPool.start link) events :=
  ⟨SlotPool.throughout_sound true link events, SlotPool.throughout_sound false link events⟩

/-- The first object freed goes to the last slot; the next call looks in slot 1. -/
example :
    (CIOBuffer.pool.run (SlotPool.start (fun _ => none) : SlotPool Nat Nat)
      [.alloc 0, .allocSlot 0, .create 0 7, .allocReturn 0, .free 0 7, .freeSlot 0, .alloc 1]).map
        (fun pool => (pool.slots 15, pool.status 7, (pool.calls 1).isSome, slotOf pool.alloc)) =
      some (some 7, .freed, true, 1) := by
  decide

end Pools

end AuthServer
