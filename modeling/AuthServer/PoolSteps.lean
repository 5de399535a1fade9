/-
The pools again, one load, store or exchange at a time.

The slots are guarded by locks, and between any two steps of a thread, also inside
the lock, other threads move.  Every run of these steps is answered by one of
the plain pools, in which a slot is worked on in one step: the load of an empty
head and the stores to a head are where the plain step is taken.
-/

import AuthServer.Lib.Simulations
import AuthServer.SlotPools
import AuthServer.SpinLock

set_option autoImplicit false

namespace AuthServer

open FreeLists

/-- When `Alloc` clears the link of what it found: not at all, as in `CPacketServer`;
under the lock, as in `CPacketServerEx`; at its end, as in `CIOBuffer`. -/
inductive LinkClearing where
  | never
  | locked
  | atEnd
  deriving DecidableEq

inductive PoolCall (Node : Type) where
  | allocEnter (slot : Fin 16) (tries : LockTries)
  | allocLoad (slot : Fin 16)
  | allocLink (slot : Fin 16) (node : Node)
  | allocStore (slot : Fin 16) (node : Node) (next : Option Node)
  | allocClear (slot : Fin 16) (node : Node)
  | allocLeave (slot : Fin 16) (found : Option Node)
  | creating
  | returning (node : Node)
  | freeEnter (slot : Fin 16) (node : Node) (tries : LockTries)
  | freeLoad (slot : Fin 16) (node : Node)
  | freeLink (slot : Fin 16) (node : Node) (head : Option Node)
  | freeStore (slot : Fin 16) (node : Node)
  | freeLeave (slot : Fin 16)

def PoolCall.section? {Node : Type} : PoolCall Node → Option (Fin 16)
  | .allocLoad slot | .allocLink slot _ | .allocStore slot _ _ | .allocClear slot _
  | .allocLeave slot _ | .freeLoad slot _ | .freeLink slot _ _ | .freeStore slot _
  | .freeLeave slot => some slot
  | .allocEnter _ _ | .creating | .returning _ | .freeEnter _ _ _ => none

def PoolCall.plain {Node : Type} : PoolCall Node → Option (SlotCall Node)
  | .allocEnter slot _ | .allocLoad slot | .allocLink slot _ | .allocStore slot _ _ =>
      some (.allocating slot)
  | .allocClear _ node | .allocLeave _ (some node) | .returning node => some (.returning node)
  | .allocLeave _ none | .creating => some .creating
  | .freeEnter slot node _ | .freeLoad slot node | .freeLink slot node _
  | .freeStore slot node => some (.freeing slot node)
  | .freeLeave _ => none

structure PoolMemory (Thread Node : Type) where
  slots : Fin 16 → Option Node
  link : Node → Option Node
  locks : Fin 16 → CLock Thread
  alloc : UInt32
  free : UInt32
  calls : Thread → Option (PoolCall Node)
  status : Node → ObjectStatus

inductive MemoryEvent (Thread Node : Type) where
  | alloc (thread : Thread)
  | advance (thread : Thread)
  | create (thread : Thread) (node : Node)
  | free (thread : Thread) (node : Node)
  | write (node : Node) (value : Option Node)

namespace PoolMemory

variable {Thread Node : Type}

def start (type : LockType) (memory : UInt32) (link : Node → Option Node) :
    PoolMemory Thread Node where
  slots := fun _ => none
  link := link
  locks := fun _ => .create type memory
  alloc := 0xFFFFFFFF
  free := 0
  calls := fun _ => none
  status := fun _ => .unborn

section Operations

variable [DecidableEq Thread] [DecidableEq Node]

def goto (pool : PoolMemory Thread Node) (thread : Thread) (call : Option (PoolCall Node)) :
    PoolMemory Thread Node :=
  { pool with calls := Function.update pool.calls thread call }

def enter (pool : PoolMemory Thread Node) (thread : Thread) (slot : Fin 16) (tries : LockTries)
    (waits : LockTries → PoolCall Node) (inside : PoolCall Node) :
    Option (PoolMemory Thread Node) :=
  ((pool.locks slot).attempt thread tries).map fun (after, place) =>
    { pool with locks := Function.update pool.locks slot after }.goto thread
      (some ((place.map waits).getD inside))

def leave (pool : PoolMemory Thread Node) (thread : Thread) (slot : Fin 16)
    (call : Option (PoolCall Node)) : PoolMemory Thread Node :=
  { pool with locks := Function.update pool.locks slot (pool.locks slot).Leave }.goto thread call

def writeLink (pool : PoolMemory Thread Node) (node : Node) (value : Option Node) :
    PoolMemory Thread Node :=
  { pool with link := Function.update pool.link node value }

def writeHead (pool : PoolMemory Thread Node) (slot : Fin 16) (head : Option Node) :
    PoolMemory Thread Node :=
  { pool with slots := Function.update pool.slots slot head }

def handOver (pool : PoolMemory Thread Node) (clears : LinkClearing) (node : Node) :
    PoolMemory Thread Node :=
  { pool with link := if clears = .atEnd then Function.update pool.link node none else pool.link }

def mark (pool : PoolMemory Thread Node) (node : Node) (status : ObjectStatus) :
    PoolMemory Thread Node :=
  { pool with status := Function.update pool.status node status }

/-- The next step of a thread; with the store to a head the object goes to the thread or to the
list. -/
def advance (clears : LinkClearing) (pool : PoolMemory Thread Node) (thread : Thread) :
    PoolCall Node → Option (PoolMemory Thread Node)
  | .allocEnter slot tries => pool.enter thread slot tries (.allocEnter slot) (.allocLoad slot)
  | .allocLoad slot =>
      some (pool.goto thread
        (some (match pool.slots slot with
          | some node => .allocLink slot node
          | none => .allocLeave slot none)))
  | .allocLink slot node =>
      some (pool.goto thread (some (.allocStore slot node (pool.link node))))
  | .allocStore slot node next =>
      some (((pool.writeHead slot next).mark node .held).goto thread
        (some (if clears = .locked then .allocClear slot node else .allocLeave slot (some node))))
  | .allocClear slot node =>
      some ((pool.writeLink node none).goto thread (some (.allocLeave slot (some node))))
  | .allocLeave slot found =>
      some (pool.leave thread slot
        (some (match found with
          | some node => .returning node
          | none => .creating)))
  | .creating => none
  | .returning node =>
      some (((pool.handOver clears node).mark node .live).goto thread none)
  | .freeEnter slot node tries =>
      pool.enter thread slot tries (.freeEnter slot node) (.freeLoad slot node)
  | .freeLoad slot node =>
      some (pool.goto thread (some (.freeLink slot node (pool.slots slot))))
  | .freeLink slot node head =>
      some ((pool.writeLink node head).goto thread (some (.freeStore slot node)))
  | .freeStore slot node =>
      some (((pool.writeHead slot (some node)).mark node .freed).goto thread
        (some (.freeLeave slot)))
  | .freeLeave slot => some (pool.leave thread slot none)

def step (clears : LinkClearing) (pool : PoolMemory Thread Node) :
    MemoryEvent Thread Node → Option (PoolMemory Thread Node)
  | .alloc thread =>
      match pool.calls thread with
      | none =>
          some ({ pool with alloc := pool.alloc + 1 }.goto thread
            (some (.allocEnter (slotOf (pool.alloc + 1)) .first)))
      | some _ => none
  | .advance thread => (pool.calls thread).bind (pool.advance clears thread)
  | .create thread node =>
      match pool.calls thread with
      | some .creating =>
          if pool.status node = .unborn then
            some ((pool.mark node .held).goto thread (some (.returning node)))
          else none
      | _ => none
  | .free thread node =>
      match pool.calls thread with
      | none =>
          if pool.status node = .live then
            some (({ pool with free := pool.free - 1 }.mark node .held).goto thread
              (some (.freeEnter (slotOf (pool.free - 1)) node .first)))
          else none
      | some _ => none
  | .write node value =>
      if pool.status node = .live then some (pool.writeLink node value) else none

def machine (clears : LinkClearing) :
    EventRuns.Machine (PoolMemory Thread Node) (MemoryEvent Thread Node) :=
  ⟨step clears⟩

end Operations

/-! ### What the threads know -/

def depthOf (calls : Thread → Option (PoolCall Node)) (slot : Fin 16) (thread : Thread) : Nat :=
  if (calls thread).bind PoolCall.section? = some slot then 1 else 0

/-- What a thread has loaded or linked is as it was. -/
def Fits (slots : Fin 16 → Option Node) (link : Node → Option Node) : PoolCall Node → Prop
  | .allocLink slot node => slots slot = some node
  | .allocStore slot node next => slots slot = some node ∧ link node = next
  | .freeLink slot _ head => slots slot = head
  | .freeStore slot node => link node = slots slot
  | _ => True

def linked? : PoolCall Node → Option Node
  | .allocStore _ node _ | .freeStore _ node => some node
  | _ => none

/-- The plain pool that a pool is an image of.  Links are compared where no thread
has the object in his hands. -/
structure Related (pool : PoolMemory Thread Node) (shadow : SlotPool Thread Node) : Prop where
  slots : shadow.slots = pool.slots
  alloc : shadow.alloc = pool.alloc
  free : shadow.free = pool.free
  status : shadow.status = pool.status
  calls : shadow.calls = (fun call => call.bind PoolCall.plain) ∘ pool.calls
  link : ∀ node, pool.status node ≠ .held → shadow.link node = pool.link node
  guards : ∀ slot, (pool.locks slot).Guards (depthOf pool.calls slot)
  fits : ∀ thread call, pool.calls thread = some call → Fits pool.slots pool.link call
  kept : shadow.Kept

theorem start_related (type : LockType) (memory : UInt32) (link : Node → Option Node) :
    Related (start type memory link : PoolMemory Thread Node) (SlotPool.start link) where
  slots := rfl
  alloc := rfl
  free := rfl
  status := rfl
  calls := rfl
  link := fun _ _ => rfl
  guards := fun _ => CLock.create_guards type memory
  fits := nofun
  kept := SlotPool.start_kept link

section Knowledge

variable {pool : PoolMemory Thread Node} {shadow : SlotPool Thread Node}

theorem Related.plainCall (related : Related pool shadow) (thread : Thread)
    (call : PoolCall Node) (at_ : pool.calls thread = some call) :
    shadow.calls thread = call.plain := by
  rw [related.calls, Function.comp_apply, at_, Option.bind_some]

theorem depthOf_inside (calls : Thread → Option (PoolCall Node)) (slot : Fin 16)
    (thread : Thread) (call : PoolCall Node) (at_ : calls thread = some call)
    (inside : call.section? = some slot) : 0 < depthOf calls slot thread := by
  rw [depthOf, at_, Option.bind_some, if_pos inside]
  exact Nat.one_pos

/-- Nobody else is inside the lock of the slot that a thread works on. -/
theorem Related.alone (related : Related pool shadow) (thread other : Thread) (slot : Fin 16)
    (call elsewhere : PoolCall Node) (at_ : pool.calls thread = some call)
    (inside : call.section? = some slot) (away : other ≠ thread)
    (there : pool.calls other = some elsewhere) : elsewhere.section? ≠ some slot := by
  intro both
  exact away ((related.guards slot).exclusive other thread
    (depthOf_inside pool.calls slot other elsewhere there both)
    (depthOf_inside pool.calls slot thread call at_ inside))

theorem Related.head_freed (related : Related pool shadow) (slot : Fin 16) (node : Node)
    (head : pool.slots slot = some node) : pool.status node = .freed := by
  obtain ⟨lists, stands, listed⟩ := related.kept.freeLists
  obtain ⟨rest, list, _⟩ := stands.pop slot node (related.slots ▸ head)
  rw [← related.status]
  exact (listed node).mp ⟨slot, list ▸ List.mem_cons_self⟩

theorem Related.holding (related : Related pool shadow) (thread : Thread) (node : Node)
    (call : PoolCall Node) (at_ : pool.calls thread = some call)
    (has : call.plain.bind SlotCall.node = some node) : shadow.holding thread = some node := by
  rw [shadow.holding_of_call thread _ (related.plainCall thread call at_), has]

/-- An object that a thread counts on is free, or in his hands. -/
theorem Related.linked_cases (related : Related pool shadow) (thread : Thread) (node : Node)
    (call : PoolCall Node) (at_ : pool.calls thread = some call)
    (counts : linked? call = some node) :
    pool.status node = .freed ∨ shadow.holding thread = some node := by
  have fits := related.fits thread call at_
  cases call with
  | allocStore slot found next =>
      cases counts
      exact Or.inl (related.head_freed slot node fits.1)
  | freeStore slot freed =>
      cases counts
      exact Or.inr (related.holding thread node _ at_ rfl)
  | _ => cases counts

theorem Related.held (related : Related pool shadow) (thread : Thread) (node : Node)
    (has : shadow.holding thread = some node) : pool.status node = .held := by
  rw [← related.status]
  exact related.kept.held.marked thread node has

theorem Related.not_linked (related : Related pool shadow) (thread other : Thread) (node : Node)
    (call : PoolCall Node) (has : shadow.holding thread = some node) (away : other ≠ thread)
    (at_ : pool.calls other = some call) : linked? call ≠ some node := by
  intro counts
  rcases related.linked_cases other node call at_ counts with freed | hasToo
  · rw [related.held thread node has] at freed
    cases freed
  · exact away (related.kept.held.sole other thread node hasToo has)

end Knowledge

section Fitting

variable {slots : Fin 16 → Option Node} {link : Node → Option Node} {call : PoolCall Node}

theorem fits_writeHead (slot : Fin 16) (head : Option Node) (fits : Fits slots link call)
    (away : call.section? ≠ some slot) : Fits (Function.update slots slot head) link call := by
  have other : ∀ place, call.section? = some place →
      Function.update slots slot head place = slots place :=
    fun place at_ => Function.update_of_ne (fun same => away (at_.trans (congrArg some same))) _ _
  cases call with
  | allocLink place node => exact (other place rfl).trans fits
  | allocStore place node next => exact ⟨(other place rfl).trans fits.1, fits.2⟩
  | freeLink place node kept => exact (other place rfl).trans fits
  | freeStore place node => exact fits.trans (other place rfl).symm
  | _ => trivial

theorem fits_writeLink [DecidableEq Node] (node : Node) (value : Option Node)
    (fits : Fits slots link call) (away : linked? call ≠ some node) :
    Fits slots (Function.update link node value) call := by
  have other : ∀ counted, linked? call = some counted →
      Function.update link node value counted = link counted :=
    fun counted at_ =>
      Function.update_of_ne (fun same => away (at_.trans (congrArg some same))) _ _
  cases call with
  | allocStore place found next => exact ⟨fits.1, (other found rfl).trans fits.2⟩
  | freeStore place freed => exact (other freed rfl).trans fits
  | allocLink place found => exact fits
  | freeLink place freed kept => exact fits
  | _ => trivial

end Fitting

/-! ### One step -/

section Steps

variable [DecidableEq Thread] {pool : PoolMemory Thread Node} {shadow : SlotPool Thread Node}

theorem depthOf_update (calls : Thread → Option (PoolCall Node)) (thread : Thread)
    (call : Option (PoolCall Node)) (slot : Fin 16) :
    depthOf (Function.update calls thread call) slot =
      Function.update (depthOf calls slot) thread
        (if call.bind PoolCall.section? = some slot then 1 else 0) := by
  funext other
  by_cases here : other = thread
  · subst here
    rw [depthOf, Function.update_self, Function.update_self]
  · rw [depthOf, Function.update_of_ne here, Function.update_of_ne here, depthOf]

theorem depthOf_same (calls : Thread → Option (PoolCall Node)) (thread : Thread)
    (call : Option (PoolCall Node)) (slot : Fin 16)
    (same : call.bind PoolCall.section? = some slot ↔
      (calls thread).bind PoolCall.section? = some slot) :
    depthOf (Function.update calls thread call) slot = depthOf calls slot := by
  rw [depthOf_update, if_congr same rfl rfl]
  exact Function.update_eq_self thread (depthOf calls slot)

theorem Related.guards_stay (related : Related pool shadow) (thread : Thread)
    (call : Option (PoolCall Node))
    (same : call.bind PoolCall.section? = (pool.calls thread).bind PoolCall.section?)
    (slot : Fin 16) :
    (pool.locks slot).Guards (depthOf (Function.update pool.calls thread call) slot) := by
  rw [depthOf_same pool.calls thread call slot (by rw [same])]
  exact related.guards slot

theorem fits_next (calls : Thread → Option (PoolCall Node)) (thread : Thread)
    (after : Option (PoolCall Node)) (slots : Fin 16 → Option Node) (link : Node → Option Node)
    (others : ∀ other call, other ≠ thread → calls other = some call → Fits slots link call)
    (own : ∀ call, after = some call → Fits slots link call) (other : Thread)
    (call : PoolCall Node) (at_ : Function.update calls thread after other = some call) :
    Fits slots link call := by
  by_cases here : other = thread
  · rw [here, Function.update_self] at at_
    exact own call at_
  · rw [Function.update_of_ne here] at at_
    exact others other call here at_

theorem plain_update (calls : Thread → Option (PoolCall Node)) (thread : Thread)
    (call : Option (PoolCall Node)) :
    (fun call => call.bind PoolCall.plain) ∘ Function.update calls thread call =
      Function.update ((fun call => call.bind PoolCall.plain) ∘ calls) thread
        (call.bind PoolCall.plain) :=
  Function.comp_update _ _ _ _

theorem Related.calls_stay (related : Related pool shadow) (thread : Thread)
    (call : Option (PoolCall Node))
    (same : call.bind PoolCall.plain = (pool.calls thread).bind PoolCall.plain) :
    shadow.calls = (fun call => call.bind PoolCall.plain) ∘
      Function.update pool.calls thread call := by
  rw [plain_update, same, related.calls]
  exact (Function.update_eq_self thread _).symm

theorem Related.calls_set (related : Related pool shadow) (thread : Thread)
    (call : Option (PoolCall Node)) (plain : Option (SlotCall Node))
    (same : call.bind PoolCall.plain = plain) :
    shadow.setCall thread plain = (fun call => call.bind PoolCall.plain) ∘
      Function.update pool.calls thread call := by
  rw [plain_update, same, SlotPool.setCall, related.calls]

/-- A step that loads, or only goes on, which the plain pool does not see. -/
theorem Related.goto (related : Related pool shadow) (thread : Thread)
    (before call : PoolCall Node) (at_ : pool.calls thread = some before)
    (inside : call.section? = before.section?) (seen : call.plain = before.plain)
    (own : Fits pool.slots pool.link call) : Related (pool.goto thread (some call)) shadow :=
  { related with
    calls := related.calls_stay thread (some call) (by rw [at_]; exact seen)
    guards := related.guards_stay thread (some call) (by rw [at_]; exact inside)
    fits := fits_next pool.calls thread _ _ _ (fun other call _ => related.fits other call)
      fun after same => Option.some.inj same ▸ own }

theorem Related.guards_lock (related : Related pool shadow) (thread : Thread)
    (call : Option (PoolCall Node)) (slot : Fin 16) (lock : CLock Thread)
    (here : lock.Guards (depthOf (Function.update pool.calls thread call) slot))
    (elsewhere : ∀ place, place ≠ slot → (call.bind PoolCall.section? = some place ↔
      (pool.calls thread).bind PoolCall.section? = some place)) (place : Fin 16) :
    (Function.update pool.locks slot lock place).Guards
      (depthOf (Function.update pool.calls thread call) place) := by
  by_cases same : place = slot
  · subst same
    rw [Function.update_self]
    exact here
  · rw [Function.update_of_ne same,
      depthOf_same pool.calls thread call place (elsewhere place same)]
    exact related.guards place

/-- An attempt at a lock leaves everything but the lock alone. -/
theorem Related.enter (related : Related pool shadow) (thread : Thread) (slot : Fin 16)
    (tries : LockTries) (before : PoolCall Node) (waits : LockTries → PoolCall Node)
    (inside : PoolCall Node) (next : PoolMemory Thread Node)
    (at_ : pool.calls thread = some before) (outside : before.section? = none)
    (stillOutside : ∀ tries, (waits tries).section? = none)
    (entered : inside.section? = some slot)
    (waitsSeen : ∀ tries, (waits tries).plain = before.plain)
    (insideSeen : inside.plain = before.plain)
    (waitsFit : ∀ tries, Fits pool.slots pool.link (waits tries))
    (insideFits : Fits pool.slots pool.link inside)
    (stepped : pool.enter thread slot tries waits inside = some next) : Related next shadow := by
  obtain ⟨⟨after, place⟩, got, rfl⟩ := Option.map_eq_some_iff.mp stepped
  have was : (pool.calls thread).bind PoolCall.section? = none := by
    rw [at_, Option.bind_some, outside]
  have wasSeen : (pool.calls thread).bind PoolCall.plain = before.plain := by
    rw [at_, Option.bind_some]
  have depthBefore : depthOf pool.calls slot thread = 0 := by
    rw [depthOf, was, if_neg (Option.some_ne_none slot).symm]
  rcases (related.guards slot).attempted thread tries after place got with
    ⟨rfl, guards⟩ | ⟨rfl, guards⟩
  · rw [depthBefore] at guards
    refine { related with
      calls := related.calls_stay thread _ (insideSeen.trans wasSeen.symm)
      guards := related.guards_lock thread _ slot after ?_ fun other away => ?_
      fits := fits_next pool.calls thread _ _ _ (fun other call _ => related.fits other call)
        fun call same => Option.some.inj same ▸ insideFits }
    · have insideAfter : (some ((none.map waits).getD inside)).bind PoolCall.section? =
          some slot := entered
      rw [depthOf_update, if_pos insideAfter]
      exact guards
    · rw [was]
      exact iff_of_false (fun same => away (Option.some.inj (same.symm.trans entered)))
        (Option.some_ne_none other).symm
  · have outsideAfter : (some (waits tries.failed)).bind PoolCall.section? =
        (pool.calls thread).bind PoolCall.section? := (stillOutside tries.failed).trans was.symm
    refine { related with
      calls := related.calls_stay thread _ ((waitsSeen tries.failed).trans wasSeen.symm)
      guards := related.guards_lock thread _ slot after ?_ fun other away => ?_
      fits := fits_next pool.calls thread _ _ _ (fun other call _ => related.fits other call)
        fun call same => Option.some.inj same ▸ waitsFit tries.failed }
    · rw [depthOf_same pool.calls thread _ slot (by rw [Option.map_some, Option.getD_some,
        outsideAfter])]
      exact guards
    · rw [Option.map_some, Option.getD_some, outsideAfter]

theorem Related.leave (related : Related pool shadow) (thread : Thread) (slot : Fin 16)
    (before : PoolCall Node) (call : Option (PoolCall Node))
    (at_ : pool.calls thread = some before) (inside : before.section? = some slot)
    (outside : call.bind PoolCall.section? = none)
    (seen : call.bind PoolCall.plain = before.plain)
    (own : ∀ after, call = some after → Fits pool.slots pool.link after) :
    Related (pool.leave thread slot call) shadow := by
  have was : (pool.calls thread).bind PoolCall.section? = some slot := by
    rw [at_, Option.bind_some, inside]
  have wasSeen : (pool.calls thread).bind PoolCall.plain = before.plain := by
    rw [at_, Option.bind_some]
  have depthBefore : depthOf pool.calls slot thread = 1 := by
    rw [depthOf, was, if_pos rfl]
  have guards := (related.guards slot).left thread (depthBefore ▸ Nat.one_pos)
  rw [depthBefore] at guards
  refine { related with
    calls := related.calls_stay thread call (seen.trans wasSeen.symm)
    guards := related.guards_lock thread call slot (pool.locks slot).Leave ?_ fun other away => ?_
    fits := fits_next pool.calls thread call _ _ (fun other call _ => related.fits other call)
      own }
  · rw [depthOf_update, if_neg (outside ▸ (Option.some_ne_none slot).symm)]
    exact guards
  · rw [was, outside]
    exact iff_of_false (Option.some_ne_none other).symm
      fun same => away (Option.some.inj same).symm

section Answers

variable [DecidableEq Node]

theorem Related.writeOwn (related : Related pool shadow) (thread : Thread) (node : Node)
    (value : Option Node) (before call : PoolCall Node)
    (at_ : pool.calls thread = some before) (has : before.plain.bind SlotCall.node = some node)
    (inside : call.section? = before.section?) (seen : call.plain = before.plain)
    (own : Fits pool.slots (Function.update pool.link node value) call) :
    Related ((pool.writeLink node value).goto thread (some call)) shadow := by
  have holds := related.holding thread node before at_ has
  refine { related with
    calls := related.calls_stay thread (some call) (by rw [at_]; exact seen)
    link := fun other free => ?_
    guards := related.guards_stay thread (some call) (by rw [at_]; exact inside)
    fits := fits_next pool.calls thread _ _ _ (fun other there away at_ =>
        fits_writeLink node value (related.fits other there at_)
          (related.not_linked thread other node there holds away at_))
      fun after same => Option.some.inj same ▸ own }
  have different : other ≠ node := by
    rintro rfl
    exact free (related.held thread other holds)
  rw [related.link other free]
  exact (Function.update_of_ne different value pool.link).symm

/-- Where the object is in hands before and after, or changes hands, the other links
are the same. -/
theorem links_update (status : Node → ObjectStatus) (link plain : Node → Option Node)
    (node : Node) (value : Option Node) (next : ObjectStatus)
    (same : ∀ node, status node ≠ .held → plain node = link node)
    (here : next ≠ .held → value = link node) (other : Node)
    (free : Function.update status node next other ≠ .held) :
    Function.update plain node value other = link other := by
  by_cases changed : other = node
  · subst changed
    rw [Function.update_self] at free ⊢
    exact here free
  · rw [Function.update_of_ne changed] at free ⊢
    exact same other free

variable (clears : Bool)

/-- The store to the head, with which `Alloc` has its object. -/
theorem Related.allocStore (related : Related pool shadow) (thread : Thread) (slot : Fin 16)
    (node : Node) (next : Option Node) (call : PoolCall Node)
    (at_ : pool.calls thread = some (.allocStore slot node next))
    (inside : call.section? = some slot) (seen : call.plain = some (.returning node))
    (own : ∀ slots link, Fits slots link call) :
    ∃ after, (SlotPool.machine clears).step shadow (.allocSlot thread) = some after ∧
      Related (((pool.writeHead slot next).mark node .held).goto thread (some call)) after := by
  obtain ⟨head, linked⟩ := related.fits thread _ at_
  have freed := related.head_freed slot node head
  have plainHead : shadow.slots slot = some node := related.slots ▸ head
  have stepped : (SlotPool.machine clears).step shadow (.allocSlot thread) =
      some ((shadow.allocSlot thread slot).markHeld thread) := by
    simp only [SlotPool.machine, SlotPool.step, related.plainCall thread _ at_, PoolCall.plain]
  refine ⟨_, stepped, ?_⟩
  have kept := SlotPool.step_kept clears shadow _ _ related.kept stepped
  rw [shadow.allocSlot_found thread slot node plainHead] at kept ⊢
  exact {
    slots := by
      have unheld : pool.status node ≠ .held :=
        fun held => ObjectStatus.noConfusion (freed.symm.trans held)
      rw [related.slots, related.link node unheld, linked]
      rfl
    alloc := related.alloc
    free := related.free
    status := by
      rw [related.status]
      rfl
    calls := related.calls_set thread (some call) _ seen
    link := fun other free => by
      by_cases same : other = node
      · subst same
        exact absurd (Function.update_self other _ pool.status) free
      · exact related.link other (Function.update_of_ne same _ pool.status ▸ free)
    guards := related.guards_stay thread (some call) (by rw [at_]; exact inside)
    fits := fits_next pool.calls thread _ _ _ (fun other there away at_' =>
        fits_writeHead slot next (related.fits other there at_')
          (related.alone thread other slot _ there at_ rfl away at_'))
      fun after same => Option.some.inj same ▸ own _ _
    kept := kept }

theorem Related.freeStore (related : Related pool shadow) (thread : Thread) (slot : Fin 16)
    (node : Node) (at_ : pool.calls thread = some (.freeStore slot node)) :
    ∃ after, (SlotPool.machine clears).step shadow (.freeSlot thread) = some after ∧
      Related (((pool.writeHead slot (some node)).mark node .freed).goto thread
        (some (.freeLeave slot))) after := by
  have linked : pool.link node = pool.slots slot := related.fits thread _ at_
  have stepped : (SlotPool.machine clears).step shadow (.freeSlot thread) =
      some ((shadow.freeSlot thread slot node).mark node .freed) := by
    simp only [SlotPool.machine, SlotPool.step, related.plainCall thread _ at_, PoolCall.plain]
  refine ⟨_, stepped, ?_⟩
  exact {
    slots := by
      rw [SlotPool.mark, SlotPool.freeSlot, related.slots]
      rfl
    alloc := related.alloc
    free := related.free
    status := by
      rw [SlotPool.mark, SlotPool.freeSlot, related.status]
      rfl
    calls := related.calls_set thread (some (.freeLeave slot)) none rfl
    link := links_update pool.status pool.link shadow.link node _ .freed related.link
      fun _ => by rw [related.slots, linked]
    guards := related.guards_stay thread (some (.freeLeave slot)) (by rw [at_]; rfl)
    fits := fits_next pool.calls thread _ _ _ (fun other there away at_' =>
        fits_writeHead slot (some node) (related.fits other there at_')
          (related.alone thread other slot _ there at_ rfl away at_'))
      fun after same => Option.some.inj same ▸ trivial
    kept := SlotPool.step_kept clears shadow _ _ related.kept stepped }

/-- The load of an empty head, after which `Alloc` makes an object. -/
theorem Related.allocNone (related : Related pool shadow) (thread : Thread) (slot : Fin 16)
    (at_ : pool.calls thread = some (.allocLoad slot)) (empty : pool.slots slot = none) :
    ∃ after, (SlotPool.machine clears).step shadow (.allocSlot thread) = some after ∧
      Related (pool.goto thread (some (.allocLeave slot none))) after := by
  have plainEmpty : shadow.slots slot = none := related.slots ▸ empty
  have stepped : (SlotPool.machine clears).step shadow (.allocSlot thread) =
      some { shadow with calls := shadow.setCall thread (some .creating) } := by
    simp only [SlotPool.machine, SlotPool.step, related.plainCall thread _ at_, PoolCall.plain,
      shadow.allocSlot_empty thread slot plainEmpty]
  refine ⟨_, stepped, ?_⟩
  exact { related with
    calls := related.calls_set thread (some (.allocLeave slot none)) _ rfl
    guards := related.guards_stay thread _ (by rw [at_]; rfl)
    fits := fits_next pool.calls thread _ _ _ (fun other there _ => related.fits other there)
      fun after same => Option.some.inj same ▸ trivial
    kept := SlotPool.step_kept clears shadow _ _ related.kept stepped }

theorem Related.callAlloc (related : Related pool shadow) (thread : Thread)
    (idle : pool.calls thread = none) :
    ∃ after, (SlotPool.machine clears).step shadow (.alloc thread) = some after ∧
      Related ({ pool with alloc := pool.alloc + 1 }.goto thread
        (some (.allocEnter (slotOf (pool.alloc + 1)) .first))) after := by
  have plainIdle : shadow.calls thread = none := by
    rw [related.calls, Function.comp_apply, idle, Option.bind_none]
  have stepped : (SlotPool.machine clears).step shadow (.alloc thread) =
      some (shadow.callAlloc thread) := by
    simp only [SlotPool.machine, SlotPool.step, plainIdle]
  refine ⟨_, stepped, ?_⟩
  exact { related with
    alloc := congrArg (· + 1) related.alloc
    calls := by
      rw [SlotPool.callAlloc, related.alloc]
      exact related.calls_set thread _ _ rfl
    guards := related.guards_stay thread _ (by rw [idle]; rfl)
    fits := fits_next pool.calls thread _ _ _ (fun other there _ => related.fits other there)
      fun after same => Option.some.inj same ▸ trivial
    kept := SlotPool.step_kept clears shadow _ _ related.kept stepped }

theorem Related.callFree (related : Related pool shadow) (thread : Thread) (node : Node)
    (idle : pool.calls thread = none) (live : pool.status node = .live) :
    ∃ after, (SlotPool.machine clears).step shadow (.free thread node) = some after ∧
      Related (({ pool with free := pool.free - 1 }.mark node .held).goto thread
        (some (.freeEnter (slotOf (pool.free - 1)) node .first))) after := by
  have plainIdle : shadow.calls thread = none := by
    rw [related.calls, Function.comp_apply, idle, Option.bind_none]
  have plainLive : shadow.status node = .live := related.status ▸ live
  have stepped : (SlotPool.machine clears).step shadow (.free thread node) =
      some ((shadow.callFree thread node).mark node .held) := by
    simp only [SlotPool.machine, SlotPool.step, plainIdle, plainLive, if_true,
      SlotPool.markHeld_callFree]
  refine ⟨_, stepped, ?_⟩
  exact { related with
    free := congrArg (· - 1) related.free
    status := by
      rw [SlotPool.mark, SlotPool.callFree, related.status]
      rfl
    calls := by
      rw [SlotPool.mark, SlotPool.callFree, related.free]
      exact related.calls_set thread _ _ rfl
    link := fun other free => by
      by_cases same : other = node
      · subst same
        exact absurd (Function.update_self other _ pool.status) free
      · exact related.link other (Function.update_of_ne same _ pool.status ▸ free)
    guards := related.guards_stay thread _ (by rw [idle]; rfl)
    fits := fits_next pool.calls thread _ _ _ (fun other there _ => related.fits other there)
      fun after same => Option.some.inj same ▸ trivial
    kept := SlotPool.step_kept clears shadow _ _ related.kept stepped }

theorem Related.create (related : Related pool shadow) (thread : Thread) (node : Node)
    (at_ : pool.calls thread = some .creating) (unborn : pool.status node = .unborn) :
    ∃ after, (SlotPool.machine clears).step shadow (.create thread node) = some after ∧
      Related ((pool.mark node .held).goto thread (some (.returning node))) after := by
  have plainUnborn : shadow.status node = .unborn := related.status ▸ unborn
  have stepped : (SlotPool.machine clears).step shadow (.create thread node) =
      some ((shadow.create thread node).mark node .held) := by
    simp only [SlotPool.machine, SlotPool.step, related.plainCall thread _ at_, PoolCall.plain,
      plainUnborn, if_true, SlotPool.markHeld_create]
  refine ⟨_, stepped, ?_⟩
  exact { related with
    status := by
      rw [SlotPool.mark, SlotPool.create, related.status]
      rfl
    calls := related.calls_set thread _ _ rfl
    link := fun other free => by
      by_cases same : other = node
      · subst same
        exact absurd (Function.update_self other _ pool.status) free
      · exact related.link other (Function.update_of_ne same _ pool.status ▸ free)
    guards := related.guards_stay thread _ (by rw [at_]; rfl)
    fits := fits_next pool.calls thread _ _ _ (fun other there _ => related.fits other there)
      fun after same => Option.some.inj same ▸ trivial
    kept := SlotPool.step_kept clears shadow _ _ related.kept stepped }

theorem Related.write (related : Related pool shadow) (node : Node) (value : Option Node)
    (live : pool.status node = .live) :
    ∃ after, (SlotPool.machine clears).step shadow (.write node value) = some after ∧
      Related (pool.writeLink node value) after := by
  have plainLive : shadow.status node = .live := related.status ▸ live
  have stepped : (SlotPool.machine clears).step shadow (.write node value) =
      some { shadow with link := Function.update shadow.link node value } := by
    simp only [SlotPool.machine, SlotPool.step, plainLive, if_true]
  refine ⟨_, stepped, ?_⟩
  have notLinked : ∀ thread call, pool.calls thread = some call →
      linked? call ≠ some node := by
    intro thread call at_ counts
    rcases related.linked_cases thread node call at_ counts with freed | has
    · rw [live] at freed
      cases freed
    · rw [related.held thread node has] at live
      cases live
  exact { related with
    link := fun other free => by
      rw [writeLink]
      dsimp only
      by_cases same : other = node
      · rw [same, Function.update_self, Function.update_self]
      · rw [Function.update_of_ne same, Function.update_of_ne same]
        exact related.link other free
    fits := fun thread call at_ =>
      fits_writeLink node value (related.fits thread call at_) (notLinked thread call at_)
    kept := SlotPool.step_kept clears shadow _ _ related.kept stepped }

/-- `Alloc` returns; the plain pool ends its call, and then has the link written as
it was left here. -/
theorem Related.handOver (related : Related pool shadow) (how : LinkClearing) (thread : Thread)
    (node : Node) (at_ : pool.calls thread = some (.returning node)) :
    ∃ events after, (SlotPool.machine clears).run shadow events = some after ∧
      Related (((pool.handOver how node).mark node .live).goto thread none) after := by
  have has := related.holding thread node _ at_ rfl
  have stepped : (SlotPool.machine clears).step shadow (.allocReturn thread) =
      some ((shadow.allocReturn clears thread node).mark node .live) := by
    simp only [SlotPool.machine, SlotPool.step, related.plainCall thread _ at_, PoolCall.plain]
  let plainLink := (shadow.allocReturn clears thread node).link node
  have middle : Related ({ pool with
      link := Function.update pool.link node plainLink
      status := Function.update pool.status node .live }.goto thread none)
      ((shadow.allocReturn clears thread node).mark node .live) := by
    exact { related with
      status := by
        rw [SlotPool.mark, SlotPool.allocReturn, related.status]
        rfl
      calls := related.calls_set thread none none rfl
      link := fun other free => by
        by_cases same : other = node
        · subst same
          exact (Function.update_self other plainLink pool.link).symm
        · have elsewhere :
              ((shadow.allocReturn clears thread node).mark node .live).link other =
                shadow.link other := by
            rw [SlotPool.mark, SlotPool.allocReturn]
            dsimp only
            split
            · exact Function.update_of_ne same _ _
            · rfl
          have before : pool.status other ≠ .held :=
            Function.update_of_ne same ObjectStatus.live pool.status ▸ free
          rw [elsewhere, related.link other before]
          exact (Function.update_of_ne same plainLink pool.link).symm
      guards := related.guards_stay thread none (by rw [at_]; rfl)
      fits := fits_next pool.calls thread _ _ _ (fun other there away at_' =>
          fits_writeLink node plainLink (related.fits other there at_')
            (related.not_linked thread other node there has away at_'))
          fun after same => absurd same (Option.some_ne_none after).symm
      kept := SlotPool.step_kept clears shadow _ _ related.kept stepped }
  have live : Function.update pool.status node ObjectStatus.live node = .live :=
    Function.update_self node ObjectStatus.live pool.status
  obtain ⟨after, written, ended⟩ := middle.write clears node
    ((pool.handOver how node).link node) live
  refine ⟨[.allocReturn thread, .write node ((pool.handOver how node).link node)], after, ?_,
    ?_⟩
  · rw [EventRuns.Machine.run, stepped]
    dsimp only
    rw [EventRuns.Machine.run, written]
    rfl
  · have sameLink : Function.update (Function.update pool.link node plainLink) node
        ((pool.handOver how node).link node) = (pool.handOver how node).link := by
      rw [Function.update_idem, PoolMemory.handOver]
      dsimp only
      split
      · rw [Function.update_self]
      · exact Function.update_eq_self node pool.link
    rw [writeLink, PoolMemory.goto] at ended
    dsimp only at ended
    rw [sameLink] at ended
    exact ended

theorem answered_once {plain : SlotPool Thread Node} {event : SlotEvent Thread Node}
    {good : SlotPool Thread Node → Prop}
    (answer : ∃ after, (SlotPool.machine clears).step plain event = some after ∧ good after) :
    ∃ events after, (SlotPool.machine clears).run plain events = some after ∧ good after := by
  obtain ⟨after, stepped, ended⟩ := answer
  refine ⟨[event], after, ?_, ended⟩
  rw [EventRuns.Machine.run, stepped]
  rfl

theorem Related.unseen (related : Related pool shadow) :
    ∃ events after, (SlotPool.machine clears).run shadow events = some after ∧
      Related pool after :=
  ⟨[], shadow, rfl, related⟩

theorem Related.advanced (related : Related pool shadow) (how : LinkClearing) (thread : Thread)
    (call : PoolCall Node) (next : PoolMemory Thread Node)
    (at_ : pool.calls thread = some call) (stepped : pool.advance how thread call = some next) :
    ∃ events after, (SlotPool.machine clears).run shadow events = some after ∧
      Related next after := by
  cases call with
  | allocEnter slot tries =>
      exact (related.enter thread slot tries _ (.allocEnter slot) (.allocLoad slot) next at_ rfl
        (fun _ => rfl) rfl (fun _ => rfl) rfl (fun _ => trivial) trivial stepped).unseen clears
  | allocLoad slot =>
      cases stepped
      split
      · rename_i node head
        exact (related.goto thread _ (.allocLink slot node) at_ rfl rfl head).unseen clears
      · rename_i empty
        exact answered_once clears (related.allocNone clears thread slot at_ empty)
  | allocLink slot node =>
      cases stepped
      have head : pool.slots slot = some node := related.fits thread _ at_
      exact (related.goto thread _ (.allocStore slot node (pool.link node)) at_ rfl rfl
        ⟨head, rfl⟩).unseen clears
  | allocStore slot node link =>
      cases stepped
      refine answered_once clears (related.allocStore clears thread slot node link _ at_ ?_ ?_ ?_)
      · split
        · rfl
        · rfl
      · split
        · rfl
        · rfl
      · intro slots link
        split
        · trivial
        · trivial
  | allocClear slot node =>
      cases stepped
      exact (related.writeOwn thread node none _ (.allocLeave slot (some node)) at_ rfl rfl rfl
        trivial).unseen clears
  | allocLeave slot found =>
      cases stepped
      cases found with
      | none =>
          exact (related.leave thread slot _ (some .creating) at_ rfl rfl rfl
            fun after same => Option.some.inj same ▸ trivial).unseen clears
      | some node =>
          exact (related.leave thread slot _ (some (.returning node)) at_ rfl rfl rfl
            fun after same => Option.some.inj same ▸ trivial).unseen clears
  | creating => cases stepped
  | returning node =>
      cases stepped
      exact related.handOver clears how thread node at_
  | freeEnter slot node tries =>
      exact (related.enter thread slot tries _ (.freeEnter slot node) (.freeLoad slot node) next
        at_ rfl (fun _ => rfl) rfl (fun _ => rfl) rfl (fun _ => trivial) trivial
        stepped).unseen clears
  | freeLoad slot node =>
      cases stepped
      exact (related.goto thread _ (.freeLink slot node (pool.slots slot)) at_ rfl rfl
        rfl).unseen clears
  | freeLink slot node head =>
      cases stepped
      have loaded : pool.slots slot = head := related.fits thread _ at_
      have linked : Function.update pool.link node head node = pool.slots slot := by
        rw [Function.update_self, loaded]
      exact (related.writeOwn thread node head _ (.freeStore slot node) at_ rfl rfl rfl
        linked).unseen clears
  | freeStore slot node =>
      cases stepped
      exact answered_once clears (related.freeStore clears thread slot node at_)
  | freeLeave slot =>
      cases stepped
      exact (related.leave thread slot _ none at_ rfl rfl rfl nofun).unseen clears

theorem simulation (how : LinkClearing) :
    EventRuns.Simulation (machine how) (SlotPool.machine clears)
      (Related : PoolMemory Thread Node → SlotPool Thread Node → Prop) := by
  refine ⟨fun pool event next shadow related stepped => ?_⟩
  cases event with
  | alloc thread =>
      simp only [machine, step] at stepped
      split at stepped
      · rename_i idle
        cases stepped
        exact answered_once clears (related.callAlloc clears thread idle)
      · contradiction
  | advance thread =>
      obtain ⟨call, at_, advanced⟩ := Option.bind_eq_some_iff.mp stepped
      exact related.advanced clears how thread call next at_ advanced
  | create thread node =>
      simp only [machine, step] at stepped
      split at stepped
      · rename_i at_
        split at stepped
        · rename_i unborn
          cases stepped
          exact answered_once clears (related.create clears thread node at_ unborn)
        · contradiction
      · contradiction
  | free thread node =>
      simp only [machine, step] at stepped
      split at stepped
      · rename_i idle
        split at stepped
        · rename_i live
          cases stepped
          exact answered_once clears (related.callFree clears thread node idle live)
        · contradiction
      · contradiction
  | write node value =>
      simp only [machine, step] at stepped
      split at stepped
      · rename_i live
        cases stepped
        exact answered_once clears (related.write clears node value live)
      · contradiction

end Answers

end Steps

/-! ### Every run -/

/-- The free objects are in the lists, no two threads have one object in their hands,
and no two are inside the lock of one slot. -/
structure Orderly (pool : PoolMemory Thread Node) : Prop where
  freeLists : ∃ lists, Stands pool.link pool.slots lists ∧
    ∀ node, Listed lists node ↔ pool.status node = .freed
  hands : ∀ thread call node, pool.calls thread = some call →
    call.plain.bind SlotCall.node = some node → pool.status node = .held ∧
      ∀ other elsewhere, pool.calls other = some elsewhere →
        elsewhere.plain.bind SlotCall.node = some node → other = thread
  sections : ∀ thread call slot, pool.calls thread = some call → call.section? = some slot →
    ∀ other elsewhere, pool.calls other = some elsewhere → elsewhere.section? = some slot →
      other = thread

theorem Related.orderly {pool : PoolMemory Thread Node} {shadow : SlotPool Thread Node}
    (related : Related pool shadow) (kept : shadow.Kept) : pool.Orderly := by
  refine ⟨?_, fun thread call node at_ has => ?_, fun thread call slot at_ inside => ?_⟩
  · obtain ⟨lists, stands, listed⟩ := kept.freeLists
    rw [related.slots] at stands
    rw [related.status] at listed
    refine ⟨lists, stands.congr fun node inList => ?_, listed⟩
    refine (related.link node ?_).symm
    rw [(listed node).mp inList]
    exact nofun
  · have holds := related.holding thread node call at_ has
    refine ⟨related.held thread node holds, fun other elsewhere there hasToo => ?_⟩
    exact kept.held.sole other thread node (related.holding other node elsewhere there hasToo)
      holds
  · intro other elsewhere there both
    by_contra away
    exact related.alone thread other slot call elsewhere at_ inside away there both

section Runs

variable [DecidableEq Thread] [DecidableEq Node]

/-- Whatever the threads do between the loads and stores of the others, the pool
comes to a state of the pool that works on a slot in one step. -/
theorem run_answered (how : LinkClearing) (type : LockType) (memory : UInt32)
    (link : Node → Option Node) (events : List (MemoryEvent Thread Node))
    (final : PoolMemory Thread Node)
    (ran : (machine how).run (start type memory link) events = some final) :
    ∃ answers after,
      (SlotPool.machine (decide (how = .atEnd))).run (SlotPool.start link) answers = some after ∧
      after.slots = final.slots ∧ after.alloc = final.alloc ∧ after.free = final.free ∧
      after.status = final.status ∧
      after.calls = (fun call => call.bind PoolCall.plain) ∘ final.calls ∧
      ∀ node, final.status node ≠ .held → after.link node = final.link node := by
  obtain ⟨answers, after, answered, related⟩ := (simulation (decide (how = .atEnd)) how).run
    events _ final _ (start_related type memory link) ran
  exact ⟨answers, after, answered, related.slots, related.alloc, related.free, related.status,
    related.calls, related.link⟩

/-- Object 7 is freed into slot 15, where the sixteenth `Alloc` finds it. -/
def reuse : List (MemoryEvent Nat Nat) :=
  [.alloc 0, .advance 0, .advance 0, .advance 0, .create 0 7, .advance 0,
    .free 0 7, .advance 0, .advance 0, .advance 0, .advance 0, .advance 0] ++
  (List.range 14).map (fun other => .alloc (other + 2)) ++
  [.alloc 1, .advance 1, .advance 1, .advance 1, .advance 1, .advance 1, .advance 1]

theorem run_answered_reuse :
    ∃ answers after,
      (SlotPool.machine (decide (LinkClearing.never = .atEnd))).run
        (SlotPool.start fun _ => none : SlotPool Nat Nat) answers = some after ∧
      after.status 7 = .live ∧ after.slots 15 = none ∧ after.free = 0xFFFFFFFF := by
  obtain ⟨answers, after, answered, slots, _, free, status, _⟩ :=
    run_answered .never .eCustomSpinLock 0 (fun _ : Nat => none) reuse _ rfl
  exact ⟨answers, after, answered, by rw [status]; rfl, by rw [slots]; rfl, by rw [free]; rfl⟩

/-- The pools are orderly between any two steps, with any of the locks and whenever
the links are cleared. -/
theorem orderly_throughout (how : LinkClearing) (type : LockType) (memory : UInt32)
    (link : Node → Option Node) (events : List (MemoryEvent Thread Node)) :
    (machine how).Throughout Orderly (start type memory link) events := by
  refine (simulation false how).throughout Orderly SlotPool.Kept
    (fun _ _ related kept => related.orderly kept) events _ _ (start_related type memory link)
    fun answers => ?_
  exact (SlotPool.machine false).throughout_of_guarded SlotPool.Kept SlotPool.Kept
    (fun _ _ => True) (fun pool event next kept _ => SlotPool.step_kept false pool event next kept)
    (fun _ kept => kept) answers _ (SlotPool.start_kept link)
    ((SlotPool.machine false).guarded_of_step _ (fun _ _ _ _ => trivial) answers _)

end Runs

end PoolMemory

end AuthServer
