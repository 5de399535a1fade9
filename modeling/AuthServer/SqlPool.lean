/-
The pool of database connections.

`DBEnv` keeps its slots in an array and the free ones in a queue through
`pNext`.  The constructor of `CDBConn` takes the slot at the front and the
destructor puts it back behind the others, each under `m_lock`.  The machine
below also lists the slots that were handed out and returned.
-/

import AuthServer.Lib.EventRuns
import AuthServer.Lib.LinkedQueue
import AuthServer.MySQLConnection

set_option autoImplicit false

namespace AuthServer

open LinkedQueue

structure SQLPool where
  reset : Bool
  connect : Option CMySQLConnection
  pNext : Option Nat

structure DBEnv where
  sqlPool : Nat → SQLPool
  freeSqlPool : Option Nat
  freeSqlPoolEnd : Option Nat
  connCount : Nat

namespace DBEnv

def setSlot (env : DBEnv) (slot : Nat) (content : SQLPool) : DBEnv :=
  { env with sqlPool := fun other => if other = slot then content else env.sqlPool other }

def create (connCount : Nat) : DBEnv := ⟨fun _ => ⟨false, none, none⟩, none, none, connCount⟩

def connectSlots (outcomes : Nat → SqlConnectOutcome) (env : DBEnv) : Nat → DBEnv
  | 0 => env
  | slot + 1 =>
      let before := connectSlots outcomes env slot
      let connection := CMySQLConnection.create.connect (outcomes slot)
      before.setSlot slot
        { before.sqlPool slot with pNext := none, connect := some connection.2 }

def salvageSlot (env : DBEnv) (slot : Nat) : DBEnv :=
  if (env.sqlPool slot).connect.isSome then
    match env.freeSqlPool with
    | some first =>
        { env.setSlot slot { env.sqlPool slot with pNext := some first } with
          freeSqlPool := some slot }
    | none => { env with freeSqlPool := some slot, freeSqlPoolEnd := some slot }
  else env

def salvageSlots (env : DBEnv) : Nat → DBEnv
  | 0 => env
  | slot + 1 => (salvageSlots env slot).salvageSlot slot

def allocSQLPool (env : DBEnv) (outcomes : Nat → SqlConnectOutcome) : DBEnv :=
  (env.connectSlots outcomes env.connCount).salvageSlots env.connCount

def takeSlot (env : DBEnv) : Option (Nat × DBEnv) :=
  match env.freeSqlPool with
  | none => none
  | some slot =>
      let taken := env.setSlot slot { env.sqlPool slot with reset := false }
      let next := (taken.sqlPool slot).pNext
      some (slot,
        { taken with
          freeSqlPool := next
          freeSqlPoolEnd := if next = none then none else taken.freeSqlPoolEnd })

/-- The destructor of `CDBConn`; linking to a tail that is missing has no meaning. -/
def returnSlot (env : DBEnv) (slot : Nat) : Option DBEnv :=
  if (env.sqlPool slot).reset then some env
  else
    let cut := env.setSlot slot { env.sqlPool slot with pNext := none }
    match env.freeSqlPool, env.freeSqlPoolEnd with
    | none, _ => some { cut with freeSqlPool := some slot, freeSqlPoolEnd := some slot }
    | some _, none => none
    | some _, some last =>
        some { cut.setSlot last { cut.sqlPool last with pNext := some slot } with
          freeSqlPoolEnd := some slot }

def nextOf (env : DBEnv) (slot : Nat) : Option Nat := (env.sqlPool slot).pNext

/-- The free list stands for these slots, from front to back. -/
def Free (env : DBEnv) (slots : List Nat) : Prop :=
  Holds env.nextOf env.freeSqlPool env.freeSqlPoolEnd slots

/-! ### Allocation -/

@[simp] theorem setSlot_same (env : DBEnv) (slot : Nat) (content : SQLPool) :
    (env.setSlot slot content).sqlPool slot = content := if_pos rfl

theorem setSlot_other (env : DBEnv) (slot other : Nat) (content : SQLPool)
    (differ : other ≠ slot) : (env.setSlot slot content).sqlPool other = env.sqlPool other :=
  if_neg differ

theorem connectSlots_slot (outcomes : Nat → SqlConnectOutcome) (env : DBEnv) (count slot : Nat) :
    (env.connectSlots outcomes count).sqlPool slot =
      if slot < count then
        { env.sqlPool slot with
          pNext := none
          connect := some (CMySQLConnection.create.connect (outcomes slot)).2 }
      else env.sqlPool slot := by
  induction count with
  | zero => rfl
  | succ count ih =>
      rw [connectSlots]
      by_cases here : slot = count
      · subst here
        simp only [setSlot_same, ih, Nat.lt_irrefl, if_false, Nat.lt_succ_self, if_true]
      · simp only [setSlot_other _ _ _ _ here, ih]
        by_cases below : slot < count
        · rw [if_pos below, if_pos (Nat.lt_succ_of_lt below)]
        · rw [if_neg below, if_neg (by omega)]

theorem connectSlots_list (outcomes : Nat → SqlConnectOutcome) (env : DBEnv) (count : Nat) :
    (env.connectSlots outcomes count).freeSqlPool = env.freeSqlPool ∧
      (env.connectSlots outcomes count).freeSqlPoolEnd = env.freeSqlPoolEnd := by
  induction count with
  | zero => exact ⟨rfl, rfl⟩
  | succ count ih => exact ih

theorem Free.salvage {env : DBEnv} {slots : List Nat} (free : env.Free slots) (slot : Nat)
    (fresh : slot ∉ slots) (connected : (env.sqlPool slot).connect.isSome = true)
    (unlinked : (env.sqlPool slot).pNext = none) :
    (env.salvageSlot slot).Free (slot :: slots) := by
  rw [salvageSlot, if_pos connected]
  cases atFront : env.freeSqlPool with
  | none =>
      have linked : Holds env.nextOf _ _ _ :=
        free.pushFront slot fresh (unlinked.trans atFront.symm) fun _ _ => rfl
      rw [if_pos atFront] at linked
      exact linked
  | some first =>
      have present : env.freeSqlPool ≠ none := by
        rw [atFront]
        exact Option.some_ne_none first
      have linked : Holds (nextOf (env.setSlot slot
            { env.sqlPool slot with pNext := some first })) (some slot)
          (if env.freeSqlPool = none then some slot else env.freeSqlPoolEnd) (slot :: slots) := by
        apply free.pushFront slot fresh
        · rw [nextOf, setSlot_same, atFront]
        · intro kept member
          have differ : kept ≠ slot := fun same => fresh (same ▸ member)
          rw [nextOf, setSlot_other _ _ _ _ differ]
          rfl
      rw [if_neg present] at linked
      exact linked

theorem salvageSlot_other (env : DBEnv) (slot other : Nat) (differ : other ≠ slot) :
    (env.salvageSlot slot).sqlPool other = env.sqlPool other := by
  unfold salvageSlot
  split
  · split
    · exact setSlot_other env slot other _ differ
    · rfl
  · rfl

theorem salvageSlot_connect (env : DBEnv) (slot other : Nat) :
    ((env.salvageSlot slot).sqlPool other).connect = (env.sqlPool other).connect := by
  by_cases same : other = slot
  · subst same
    unfold salvageSlot
    split
    · split
      · rw [setSlot_same]
      · rfl
    · rfl
  · rw [salvageSlot_other env slot other same]

/-- What the second loop has done: the slots below are free, the others as they were. -/
structure Salvaged (env result : DBEnv) (count : Nat) : Prop where
  free : result.Free (List.range count).reverse
  above : ∀ slot, count ≤ slot → result.sqlPool slot = env.sqlPool slot
  connect : ∀ slot, (result.sqlPool slot).connect = (env.sqlPool slot).connect

theorem salvageSlots_spec (env : DBEnv) (count : Nat)
    (empty : env.freeSqlPool = none ∧ env.freeSqlPoolEnd = none)
    (connected : ∀ slot, slot < count → (env.sqlPool slot).connect.isSome = true)
    (unlinked : ∀ slot, slot < count → (env.sqlPool slot).pNext = none) :
    Salvaged env (env.salvageSlots count) count := by
  induction count with
  | zero =>
      refine ⟨?_, fun _ _ => rfl, fun _ => rfl⟩
      change Holds env.nextOf env.freeSqlPool env.freeSqlPoolEnd []
      rw [empty.1, empty.2]
      exact holds_empty _
  | succ count ih =>
      have before := ih (fun slot less => connected slot (Nat.lt_succ_of_lt less))
        fun slot less => unlinked slot (Nat.lt_succ_of_lt less)
      have here := before.above count (Nat.le_refl count)
      rw [salvageSlots]
      constructor
      · rw [List.range_succ, List.reverse_concat]
        apply before.free.salvage count
        · rw [List.mem_reverse, List.mem_range]
          exact Nat.lt_irrefl count
        · rw [here]
          exact connected count (Nat.lt_succ_self count)
        · rw [here]
          exact unlinked count (Nat.lt_succ_self count)
      · intro slot above
        rw [salvageSlot_other _ _ _ (by omega)]
        exact before.above slot (by omega)
      · intro slot
        rw [salvageSlot_connect]
        exact before.connect slot

/-- After `AllocSQLPool` every slot is free, the last one in front. -/
theorem allocSQLPool_spec (connCount : Nat) (outcomes : Nat → SqlConnectOutcome) :
    ((create connCount).allocSQLPool outcomes).Free (List.range connCount).reverse ∧
      ∀ slot < connCount, (((create connCount).allocSQLPool outcomes).sqlPool slot).connect =
        some (CMySQLConnection.create.connect (outcomes slot)).2 := by
  have slots := connectSlots_slot outcomes (create connCount) connCount
  have salvaged := salvageSlots_spec ((create connCount).connectSlots outcomes connCount)
    connCount (connectSlots_list outcomes (create connCount) connCount)
    (fun slot less => by rw [slots, if_pos less]; rfl)
    (fun slot less => by rw [slots, if_pos less])
  refine ⟨salvaged.free, fun slot less => ?_⟩
  have connect := salvaged.connect slot
  rw [slots, if_pos less] at connect
  exact connect

/-! ### Taking and returning -/

/-- What taking a slot does to the free list. -/
theorem Free.take {env taken : DBEnv} {slots : List Nat} {slot : Nat} (free : env.Free slots)
    (took : env.takeSlot = some (slot, taken)) :
    ∃ rest, slots = slot :: rest ∧ taken.Free rest ∧ (taken.sqlPool slot).reset = false ∧
      ∀ other, (taken.sqlPool other).connect = (env.sqlPool other).connect ∧
        (other ≠ slot → taken.sqlPool other = env.sqlPool other) := by
  unfold takeSlot at took
  cases atFront : env.freeSqlPool with
  | none =>
      rw [atFront] at took
      cases took
  | some first =>
      rw [atFront] at took
      cases took
      have links : ∀ other, nextOf (env.setSlot slot { env.sqlPool slot with reset := false })
          other = env.nextOf other := by
        intro other
        by_cases same : other = slot
        · rw [same, nextOf, setSlot_same]
          rfl
        · rw [nextOf, setSlot_other _ _ _ _ same]
          rfl
      unfold Free at free
      rw [atFront] at free
      obtain ⟨rest, isFront, remaining⟩ := free.popFront
      refine ⟨rest, isFront, ?_, ?_, fun other => ⟨?_, ?_⟩⟩
      · have next := links slot
        unfold nextOf at next
        unfold Free
        simp only
        rw [next]
        exact remaining.congr fun kept _ => links kept
      · simp only [setSlot_same]
      · by_cases same : other = slot
        · subst same
          simp only [setSlot_same]
        · simp only [setSlot_other _ _ _ _ same]
      · intro differ
        exact setSlot_other _ _ _ _ differ

theorem setSlot_relinked (env : DBEnv) (slot : Nat) (link : Option Nat) (other : Nat) :
    ((env.setSlot slot { env.sqlPool slot with pNext := link }).sqlPool other).connect =
        (env.sqlPool other).connect ∧
      ((env.setSlot slot { env.sqlPool slot with pNext := link }).sqlPool other).reset =
        (env.sqlPool other).reset := by
  by_cases same : other = slot
  · subst same
    rw [setSlot_same]
    exact ⟨rfl, rfl⟩
  · rw [setSlot_other _ _ _ _ same]
    exact ⟨rfl, rfl⟩

theorem Free.tail_present {env : DBEnv} {slots : List Nat} {first : Nat} (free : env.Free slots)
    (atFront : env.freeSqlPool = some first) :
    ∃ last, env.freeSqlPoolEnd = some last ∧ last ∈ slots := by
  have links := free.links
  rw [atFront] at links
  cases slots with
  | nil => cases links
  | cons slot rest =>
      have last := List.getLast?_eq_getLast_of_ne_nil (List.cons_ne_nil slot rest)
      exact ⟨_, free.last.trans last, List.getLast_mem _⟩

/-- What returning a slot does to the free list. -/
theorem Free.put {env : DBEnv} {slots : List Nat} (free : env.Free slots) (slot : Nat)
    (fresh : slot ∉ slots) (held : (env.sqlPool slot).reset = false) :
    ∃ returned, env.returnSlot slot = some returned ∧ returned.Free (slots ++ [slot]) ∧
      ∀ other, (returned.sqlPool other).connect = (env.sqlPool other).connect ∧
        (returned.sqlPool other).reset = (env.sqlPool other).reset := by
  have differs : ∀ kept ∈ slots, kept ≠ slot := fun kept member same => fresh (same ▸ member)
  rw [returnSlot, if_neg (by rw [held]; exact Bool.false_ne_true)]
  simp only
  cases atFront : env.freeSqlPool with
  | none =>
      have links := free.links
      rw [atFront] at links
      have empty : slots = [] := Links.unique slots [] none links rfl
      subst empty
      refine ⟨_, rfl, ⟨⟨rfl, ?_⟩, rfl, List.nodup_singleton slot⟩, setSlot_relinked env slot none⟩
      exact congrArg SQLPool.pNext (setSlot_same env slot _)
  | some first =>
      obtain ⟨last, atEnd, member⟩ := free.tail_present atFront
      have apart := differs last member
      have present : env.freeSqlPool ≠ none := by
        rw [atFront]
        exact Option.some_ne_none first
      rw [atEnd]
      refine ⟨_, rfl, ?_, fun other => ?_⟩
      · have linked : Holds (nextOf (DBEnv.setSlot
              (env.setSlot slot { env.sqlPool slot with pNext := none }) last
              { (env.setSlot slot { env.sqlPool slot with pNext := none }).sqlPool last with
                pNext := some slot }))
            (if env.freeSqlPool = none then some slot else env.freeSqlPool) (some slot)
            (slots ++ [slot]) := by
          apply free.pushBack slot fresh
          · rw [nextOf, setSlot_other _ _ _ _ (Ne.symm apart), setSlot_same]
          · intro old isTail
            rw [atEnd, Option.some.injEq] at isTail
            rw [← isTail, nextOf, setSlot_same]
          · intro kept inside notTail
            have notLast : kept ≠ last := fun same => notTail (same ▸ atEnd)
            rw [nextOf, setSlot_other _ _ _ _ notLast, setSlot_other _ _ _ _ (differs kept inside)]
            rfl
        rw [if_neg present] at linked
        exact linked
      · have outer := setSlot_relinked
          (env.setSlot slot { env.sqlPool slot with pNext := none }) last (some slot) other
        have inner := setSlot_relinked env slot none other
        exact ⟨outer.1.trans inner.1, outer.2.trans inner.2⟩

end DBEnv

/-- The pool, the slots that live `CDBConn` objects hold, and the slots handed
out and returned so far. -/
structure PoolUse where
  env : DBEnv
  live : List Nat
  handedOut : List Nat
  returned : List Nat

/-- A constructor that finds a slot, or the destructor of one of the live objects. -/
inductive PoolEvent where
  | construct
  | destroy (index : Nat)

namespace PoolUse

open DBEnv

def step (use : PoolUse) : PoolEvent → Option PoolUse
  | .construct => do
      let taken ← use.env.takeSlot
      return ⟨taken.2, use.live ++ [taken.1], use.handedOut ++ [taken.1], use.returned⟩
  | .destroy index => do
      let slot ← use.live[index]?
      let env ← use.env.returnSlot slot
      return ⟨env, use.live.eraseIdx index, use.handedOut, use.returned ++ [slot]⟩

def machine : EventRuns.Machine PoolUse PoolEvent := ⟨step⟩

def start (connCount : Nat) (outcomes : Nat → SqlConnectOutcome) : PoolUse :=
  ⟨(DBEnv.create connCount).allocSQLPool outcomes, [], [], []⟩

/-- The free list holds these slots, which are all that are not held, in the
order in which they will be handed out. -/
structure Queued (connCount : Nat) (use : PoolUse) (slots : List Nat) : Prop where
  free : use.env.Free slots
  once : ∀ slot, slots.count slot + use.live.count slot = if slot < connCount then 1 else 0
  order : use.handedOut ++ slots = (List.range connCount).reverse ++ use.returned

structure Sound (connCount : Nat) (use : PoolUse) : Prop where
  queued : ∃ slots, Queued connCount use slots
  apart : use.live.Nodup

structure Invariant (connCount : Nat) (use : PoolUse) : Prop where
  queued : ∃ slots, Queued connCount use slots
  held : ∀ slot ∈ use.live, (use.env.sqlPool slot).reset = false

theorem Queued.fresh {connCount : Nat} {use : PoolUse} {slots : List Nat}
    (queued : Queued connCount use slots) (slot : Nat) (live : slot ∈ use.live) : slot ∉ slots := by
  intro free
  have one := queued.once slot
  have inFree := List.count_pos_iff.mpr free
  have inLive := List.count_pos_iff.mpr live
  split at one
  · omega
  · omega

theorem Invariant.sound {connCount : Nat} {use : PoolUse} (invariant : Invariant connCount use) :
    Sound connCount use := by
  refine ⟨invariant.queued, List.nodup_iff_count_le_one.mpr fun slot => ?_⟩
  obtain ⟨slots, queued⟩ := invariant.queued
  have one := queued.once slot
  split at one
  · omega
  · omega

theorem start_invariant (connCount : Nat) (outcomes : Nat → SqlConnectOutcome) :
    Invariant connCount (start connCount outcomes) := by
  refine ⟨⟨(List.range connCount).reverse, (allocSQLPool_spec connCount outcomes).1, ?_, ?_⟩, ?_⟩
  · intro slot
    change _ + 0 = _
    rw [Nat.add_zero, List.count_reverse, List.count_range]
  · exact (List.append_nil _).symm
  · intro slot impossible
    cases impossible

theorem Invariant.construct {connCount : Nat} {use : PoolUse}
    (invariant : Invariant connCount use) (slot : Nat) (taken : DBEnv)
    (took : use.env.takeSlot = some (slot, taken)) :
    Invariant connCount
      ⟨taken, use.live ++ [slot], use.handedOut ++ [slot], use.returned⟩ := by
  obtain ⟨slots, queued⟩ := invariant.queued
  obtain ⟨rest, isFront, free, reset, others⟩ := queued.free.take took
  subst isFront
  constructor
  · refine ⟨rest, free, fun other => ?_, ?_⟩
    · rw [← queued.once other, List.count_append, List.count_cons, List.count_cons,
        List.count_nil]
      omega
    · rw [← queued.order, List.append_assoc]
      rfl
  · intro other member
    by_cases same : other = slot
    · rw [same]
      exact reset
    · rw [(others other).2 same]
      rcases List.mem_append.mp member with before | isNew
      · exact invariant.held other before
      · exact absurd (List.mem_singleton.mp isNew) same

theorem Invariant.destroy {connCount : Nat} {use : PoolUse}
    (invariant : Invariant connCount use) (index slot : Nat)
    (holds : use.live[index]? = some slot) :
    ∃ env, use.env.returnSlot slot = some env ∧
      Invariant connCount
        ⟨env, use.live.eraseIdx index, use.handedOut, use.returned ++ [slot]⟩ := by
  obtain ⟨slots, queued⟩ := invariant.queued
  have member := List.mem_of_getElem? holds
  obtain ⟨env, returned, free, others⟩ := queued.free.put slot (queued.fresh slot member)
    (invariant.held slot member)
  obtain ⟨inside, isSlot⟩ := List.getElem?_eq_some_iff.mp holds
  have erased := List.erase_getElem inside
  rw [isSlot] at erased
  have removed := (List.perm_cons_erase member).trans (erased.cons slot)
  refine ⟨env, returned, ⟨slots ++ [slot], free, fun other => ?_, ?_⟩, fun other still => ?_⟩
  · rw [← queued.once other, removed.count_eq other, List.count_append, List.count_cons,
      List.count_cons, List.count_nil]
    dsimp only
    omega
  · rw [← List.append_assoc, queued.order, List.append_assoc]
  · rw [(others other).2]
    exact invariant.held other (List.eraseIdx_subset still)

theorem step_cases (use next : PoolUse) (event : PoolEvent) (stepped : step use event = some next) :
    (∃ slot taken, use.env.takeSlot = some (slot, taken) ∧
      next = ⟨taken, use.live ++ [slot], use.handedOut ++ [slot], use.returned⟩) ∨
    ∃ index slot env, use.live[index]? = some slot ∧ use.env.returnSlot slot = some env ∧
      next = ⟨env, use.live.eraseIdx index, use.handedOut, use.returned ++ [slot]⟩ := by
  cases event with
  | construct =>
      rw [PoolUse.step, Option.bind_eq_bind, Option.bind_eq_some_iff] at stepped
      obtain ⟨⟨slot, taken⟩, took, isNext⟩ := stepped
      exact Or.inl ⟨slot, taken, took, (Option.some.inj isNext).symm⟩
  | destroy index =>
      simp only [PoolUse.step, Option.bind_eq_bind, Option.bind_eq_some_iff] at stepped
      obtain ⟨slot, holds, env, returned, isNext⟩ := stepped
      exact Or.inr ⟨index, slot, env, holds, returned, (Option.some.inj isNext).symm⟩

theorem Invariant.step {connCount : Nat} (use next : PoolUse) (event : PoolEvent)
    (invariant : Invariant connCount use) (stepped : step use event = some next) :
    Invariant connCount next := by
  rcases step_cases use next event stepped with ⟨slot, taken, took, rfl⟩ |
    ⟨index, slot, env, holds, returned, rfl⟩
  · exact invariant.construct slot taken took
  · obtain ⟨other, also, kept⟩ := invariant.destroy index slot holds
    rw [returned, Option.some.injEq] at also
    rw [also]
    exact kept

theorem Invariant.step_connect {connCount : Nat} (use next : PoolUse) (event : PoolEvent)
    (invariant : Invariant connCount use) (stepped : PoolUse.step use event = some next)
    (slot : Nat) : (next.env.sqlPool slot).connect = (use.env.sqlPool slot).connect := by
  obtain ⟨slots, queued⟩ := invariant.queued
  rcases step_cases use next event stepped with ⟨front, taken, took, rfl⟩ |
    ⟨index, front, env, holds, returned, rfl⟩
  · obtain ⟨_, _, _, _, others⟩ := queued.free.take took
    exact (others slot).1
  · have member := List.mem_of_getElem? holds
    obtain ⟨other, also, _, others⟩ := queued.free.put front (queued.fresh front member)
      (invariant.held front member)
    rw [returned, Option.some.injEq] at also
    rw [also]
    exact (others slot).1

/-- Through every sequence of constructors and destructors after the allocation. -/
theorem sound_throughout (connCount : Nat) (outcomes : Nat → SqlConnectOutcome)
    (events : List PoolEvent) :
    machine.Throughout (Sound connCount) (start connCount outcomes) events := by
  refine machine.throughout_of_guarded (Invariant connCount) _ (fun _ _ => True) ?_
    (fun _ invariant => invariant.sound) events _ (start_invariant connCount outcomes) ?_
  · intro use event next invariant _ stepped
    exact Invariant.step use next event invariant stepped
  · exact machine.guarded_of_step _ (fun _ _ _ _ => trivial) events _

end PoolUse

end AuthServer
