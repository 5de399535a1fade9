/-
`CRWLock`, used by any number of threads.

`mutex` is free or held by a thread, and `dataLock` is a semaphore of at most
one.  Every single step inside the functions is a step of the machine; reading
and writing `readerCount` are two.  A thread may be in several read sections, and
calls an unlocking function only in a section of that kind.  No thread enters
`mutex` while it holds it.
-/

import AuthServer.Lib.EventRuns
import AuthServer.Lib.Processes
import Mathlib.Data.Int.Basic

set_option autoImplicit false

namespace AuthServer

open Processes

structure RWLock where
  mutex : Option Nat
  dataLock : Nat
  readerCount : Int
  foundFree : Bool

namespace RWLock

inductive Point where
  | outside
  | readEnter
  | readLoad
  | readStore (value : Int)
  | readWait
  | readLeave
  | unlockEnter
  | unlockLoad
  | unlockStore (value : Int)
  | unlockRelease
  | unlockLeave
  | writeWait
  | writeTry
  | writeRelease
  deriving DecidableEq

structure Thread where
  reads : Nat
  writing : Bool
  point : Point
  deriving DecidableEq

inductive Call where
  | readLock
  | readUnlock
  | writeLock
  | writeTryLock
  | writeUnlock

inductive Event where
  | call (i : Nat) (function : Call)
  | advance (i : Nat)

/-- `ReleaseSemaphore`, which fails at the maximum; `foundFree` records that
`prevCount` was not zero. -/
def release (lock : RWLock) : RWLock :=
  if lock.dataLock = 0 then { lock with dataLock := 1 } else { lock with foundFree := true }

def enterFunction (thread : Thread) : Call → Option Thread
  | .readLock => some { thread with point := .readEnter }
  | .readUnlock => if 0 < thread.reads then some { thread with point := .unlockEnter } else none
  | .writeLock => some { thread with point := .writeWait }
  | .writeTryLock => some { thread with point := .writeTry }
  | .writeUnlock => if thread.writing then some { thread with point := .writeRelease } else none

def advance (i : Nat) (lock : RWLock) (thread : Thread) : Option (RWLock × Thread) :=
  match thread.point with
  | .outside => none
  | .readEnter =>
      if lock.mutex = none then
        some ({ lock with mutex := some i }, { thread with point := .readLoad })
      else none
  | .readLoad => some (lock, { thread with point := .readStore (lock.readerCount + 1) })
  | .readStore value =>
      some ({ lock with readerCount := value },
        { thread with point := if value = 1 then .readWait else .readLeave })
  | .readWait =>
      if 0 < lock.dataLock then
        some ({ lock with dataLock := lock.dataLock - 1 }, { thread with point := .readLeave })
      else none
  | .readLeave =>
      some ({ lock with mutex := none },
        { thread with reads := thread.reads + 1, point := .outside })
  | .unlockEnter =>
      if lock.mutex = none then
        some ({ lock with mutex := some i }, { thread with point := .unlockLoad })
      else none
  | .unlockLoad => some (lock, { thread with point := .unlockStore (lock.readerCount - 1) })
  | .unlockStore value =>
      some ({ lock with readerCount := value },
        { thread with
          reads := thread.reads - 1
          point := if value = 0 then .unlockRelease else .unlockLeave })
  | .unlockRelease => some (lock.release, { thread with point := .unlockLeave })
  | .unlockLeave => some ({ lock with mutex := none }, { thread with point := .outside })
  | .writeWait =>
      if 0 < lock.dataLock then
        some ({ lock with dataLock := lock.dataLock - 1 },
          { thread with writing := true, point := .outside })
      else none
  | .writeTry =>
      if 0 < lock.dataLock then
        some ({ lock with dataLock := lock.dataLock - 1 },
          { thread with writing := true, point := .outside })
      else some (lock, { thread with point := .outside })
  | .writeRelease =>
      some (lock.release, { thread with writing := false, point := .outside })

structure System where
  lock : RWLock
  threads : List Thread

def step (system : System) : Event → Option System
  | .call i function => do
      let thread ← system.threads[i]?
      if thread.point = .outside then
        let called ← enterFunction thread function
        return { system with threads := system.threads.set i called }
      else none
  | .advance i => do
      let thread ← system.threads[i]?
      let moved ← advance i system.lock thread
      return ⟨moved.1, system.threads.set i moved.2⟩

def machine : EventRuns.Machine System Event := ⟨step⟩

def start (count : Nat) : System :=
  ⟨⟨none, 1, 0, false⟩, List.replicate count ⟨0, false, .outside⟩⟩

def counted (thread : Thread) : Nat :=
  thread.reads +
    match thread.point with
    | .readWait | .readLeave => 1
    | _ => 0

/-- What the lock is for, and what its counters say. -/
structure Correct (system : System) : Prop where
  exclusive : ∀ (i j : Nat) (writer other : Thread), i ≠ j →
    system.threads[i]? = some writer → system.threads[j]? = some other →
    writer.writing = true → other.writing = false ∧ other.reads = 0
  exact_ : system.lock.readerCount = (total counted system.threads : Nat)
  perThread : (∀ thread ∈ system.threads, counted thread ≤ 1) →
    system.lock.readerCount = (system.threads.countP fun thread => 0 < counted thread : Nat)
  releasedHeld : system.lock.foundFree = false

/-! ### The invariant -/

def inMutex : Point → Bool
  | .readLoad | .readStore _ | .readWait | .readLeave => true
  | .unlockLoad | .unlockStore _ | .unlockRelease | .unlockLeave => true
  | _ => false

/-- Whether the readers hold the semaphore, by the point of the thread in the
mutex, or of any thread when there is none. -/
def readersHold (count : Int) : Point → Bool
  | .readWait => false
  | .unlockRelease => true
  | _ => decide (0 < count)

/-- What a thread knows at its point. -/
def Knows (count : Int) (thread : Thread) : Prop :=
  match thread.point with
  | .readStore value => value = count + 1
  | .readWait => count = 1
  | .unlockEnter | .unlockLoad => 0 < thread.reads
  | .unlockStore value => value = count - 1 ∧ 0 < thread.reads
  | .unlockRelease => count = 0
  | .writeRelease => thread.writing = true
  | _ => True

def writes (thread : Thread) : Nat := thread.writing.toNat

/-- One is the number of the semaphore, of the writers and of the readers as a
whole together. -/
structure Invariant (system : System) : Prop where
  exact_ : system.lock.readerCount = (total counted system.threads : Nat)
  owned : ∀ (i : Nat) (thread : Thread), system.threads[i]? = some thread →
    inMutex thread.point = true → system.lock.mutex = some i
  knows : ∀ (i : Nat) (thread : Thread), system.threads[i]? = some thread →
    Knows system.lock.readerCount thread
  inside : ∀ (i : Nat) (thread : Thread), system.threads[i]? = some thread →
    inMutex thread.point = true →
    system.lock.dataLock + total writes system.threads +
      (readersHold system.lock.readerCount thread.point).toNat = 1
  empty : (∀ (i : Nat) (thread : Thread), system.threads[i]? = some thread →
      inMutex thread.point = false) →
    system.lock.dataLock + total writes system.threads +
      (decide (0 < system.lock.readerCount)).toNat = 1
  held : system.lock.foundFree = false

theorem readersHold_outside (count : Int) (point : Point) (outside : inMutex point = false) :
    readersHold count point = decide (0 < count) := by
  cases point <;> first | rfl | cases outside

theorem knows_outside (count other : Int) (thread : Thread)
    (outside : inMutex thread.point = false) (knows : Knows count thread) :
    Knows other thread := by
  unfold Knows at knows ⊢
  cases point : thread.point <;> rw [point] at outside knows <;>
    first | exact knows | cases outside

theorem start_invariant (count : Nat) : Invariant (start count) := by
  have idle : ∀ (i : Nat) (thread : Thread), (start count).threads[i]? = some thread →
      thread = ⟨0, false, .outside⟩ := fun i thread here =>
    List.eq_of_mem_replicate (List.mem_of_getElem? here)
  constructor
  · exact congrArg Nat.cast (total_replicate counted count _ rfl).symm
  · intro i thread here inside
    rw [idle i thread here] at inside
    cases inside
  · intro i thread here
    rw [idle i thread here]
    trivial
  · intro i thread here inside
    rw [idle i thread here] at inside
    cases inside
  · intro _
    have nobody : total writes (start count).threads = 0 := total_replicate writes count _ rfl
    rw [nobody]
    rfl
  · rfl

section Moves

variable {system : System} {i : Nat} {thread : Thread}

/-- While a thread is in the mutex no other is. -/
theorem Invariant.alone (invariant : Invariant system) (here : system.threads[i]? = some thread)
    (inside : inMutex thread.point = true) (j : Nat) (other : Thread) (differ : j ≠ i)
    (there : system.threads[j]? = some other) : inMutex other.point = false := by
  apply Bool.eq_false_iff.mpr
  intro also
  have mine := invariant.owned i thread here inside
  rw [invariant.owned j other there also, Option.some.injEq] at mine
  exact differ mine

theorem Invariant.nobody (invariant : Invariant system) (free : system.lock.mutex = none) (j : Nat)
    (other : Thread) (there : system.threads[j]? = some other) :
    inMutex other.point = false := by
  apply Bool.eq_false_iff.mpr
  intro inside
  have owned := invariant.owned j other there inside
  rw [free] at owned
  cases owned

theorem Invariant.moves (invariant : Invariant system) (here : system.threads[i]? = some thread)
    (alone : ∀ (j : Nat) (other : Thread), j ≠ i → system.threads[j]? = some other →
      inMutex other.point = false)
    (lock : RWLock) (moved : Thread)
    (counts : lock.readerCount + counted thread = system.lock.readerCount + counted moved)
    (owner : inMutex moved.point = true → lock.mutex = some i)
    (knows : Knows lock.readerCount moved) (writing : moved.writing = thread.writing)
    (balance : lock.dataLock + total writes system.threads +
      (readersHold lock.readerCount moved.point).toNat = 1)
    (held : lock.foundFree = false) : Invariant ⟨lock, system.threads.set i moved⟩ := by
  have sections := total_set counted system.threads i thread moved here
  have writers := total_set writes system.threads i thread moved here
  have same : writes moved = writes thread := congrArg Bool.toNat writing
  rw [same, Nat.add_right_cancel_iff] at writers
  constructor
  · have before := invariant.exact_
    change lock.readerCount = ((total counted (system.threads.set i moved) : Nat) : Int)
    omega
  · intro j other there inside
    rcases lookup_set system.threads i j moved other there with ⟨rfl, rfl⟩ | ⟨differ, before⟩
    · exact owner inside
    · rw [alone j other differ before] at inside
      cases inside
  · intro j other there
    rcases lookup_set system.threads i j moved other there with ⟨rfl, rfl⟩ | ⟨differ, before⟩
    · exact knows
    · exact knows_outside _ _ other (alone j other differ before)
        (invariant.knows j other before)
  · intro j other there inside
    rcases lookup_set system.threads i j moved other there with ⟨rfl, rfl⟩ | ⟨differ, before⟩
    · rw [writers]
      exact balance
    · rw [alone j other differ before] at inside
      cases inside
  · intro nobody
    have present : (system.threads.set i moved)[i]? = some moved := by
      rw [List.getElem?_set_self', here]
      rfl
    rw [writers, ← readersHold_outside _ moved.point (nobody i moved present)]
    exact balance
  · exact held

theorem Invariant.keeps (invariant : Invariant system) (here : system.threads[i]? = some thread)
    (lock : RWLock) (moved : Thread) (outside : inMutex thread.point = false)
    (remains : inMutex moved.point = false) (sameMutex : lock.mutex = system.lock.mutex)
    (sameCount : lock.readerCount = system.lock.readerCount)
    (sections : counted moved = counted thread) (knows : Knows lock.readerCount moved)
    (balance : lock.dataLock + writes moved = system.lock.dataLock + writes thread)
    (held : lock.foundFree = false) : Invariant ⟨lock, system.threads.set i moved⟩ := by
  have sums := total_set counted system.threads i thread moved here
  have writers := total_set writes system.threads i thread moved here
  rw [sections, Nat.add_right_cancel_iff] at sums
  constructor
  · rw [sameCount, sums]
    exact invariant.exact_
  · intro j other there inside
    rcases lookup_set system.threads i j moved other there with ⟨rfl, rfl⟩ | ⟨_, before⟩
    · rw [remains] at inside
      cases inside
    · exact sameMutex.trans (invariant.owned j other before inside)
  · intro j other there
    rcases lookup_set system.threads i j moved other there with ⟨rfl, rfl⟩ | ⟨_, before⟩
    · exact knows
    · rw [sameCount]
      exact invariant.knows j other before
  · intro j other there inside
    rcases lookup_set system.threads i j moved other there with ⟨rfl, rfl⟩ | ⟨_, before⟩
    · rw [remains] at inside
      cases inside
    · have one := invariant.inside j other before inside
      rw [sameCount]
      change lock.dataLock + total writes (system.threads.set i moved) + _ = 1
      omega
  · intro nobody
    have one := invariant.empty fun j other there => by
      by_cases same : j = i
      · subst same
        rw [here, Option.some.injEq] at there
        rw [← there]
        exact outside
      · apply nobody j other
        rw [List.getElem?_set_ne (Ne.symm same)]
        exact there
    rw [sameCount]
    change lock.dataLock + total writes (system.threads.set i moved) + _ = 1
    omega
  · exact held

theorem Invariant.atMostOne (invariant : Invariant system) :
    system.lock.dataLock + total writes system.threads ≤ 1 := by
  by_cases nobody : ∀ (i : Nat) (thread : Thread), system.threads[i]? = some thread →
      inMutex thread.point = false
  · have one := invariant.empty nobody
    omega
  · simp only [not_forall, Bool.not_eq_false] at nobody
    obtain ⟨i, thread, here, inside⟩ := nobody
    have one := invariant.inside i thread here inside
    omega

theorem Invariant.takes (invariant : Invariant system) (here : system.threads[i]? = some thread)
    (free : 0 < system.lock.dataLock) (outside : inMutex thread.point = false)
    (point : ∀ sections, counted { thread with reads := sections } = sections) :
    Invariant ⟨{ system.lock with dataLock := system.lock.dataLock - 1 },
      system.threads.set i { thread with writing := true, point := .outside }⟩ := by
  have writer := le_total writes system.threads i thread here
  have most := invariant.atMostOne
  have idle : writes thread = 0 := by omega
  refine invariant.keeps here _ _ outside rfl rfl rfl (point thread.reads).symm trivial ?_
    invariant.held
  rw [idle]
  change system.lock.dataLock - 1 + 1 = system.lock.dataLock + 0
  omega

theorem release_held (lock : RWLock) (held : lock.dataLock = 0) :
    lock.release = { lock with dataLock := 1 } := if_pos held

section Steps

variable {reads : Nat} {writing : Bool} {value : Int}

theorem Invariant.enters (invariant : Invariant system) (here : system.threads[i]? = some thread)
    (free : system.lock.mutex = none) (moved : Thread) (counts : counted moved = counted thread)
    (knows : Knows system.lock.readerCount moved) (writing : moved.writing = thread.writing)
    (plain : readersHold system.lock.readerCount moved.point =
      decide (0 < system.lock.readerCount)) :
    Invariant ⟨{ system.lock with mutex := some i }, system.threads.set i moved⟩ := by
  refine invariant.moves here (fun j other _ there => invariant.nobody free j other there) _ moved
    ?_ (fun _ => rfl) knows writing ?_ invariant.held
  · rw [counts]
  · rw [plain]
    exact invariant.empty (invariant.nobody free)

theorem Invariant.readStore (invariant : Invariant system)
    (here : system.threads[i]? = some ⟨reads, writing, .readStore value⟩) :
    Invariant ⟨{ system.lock with readerCount := value },
      system.threads.set i
        ⟨reads, writing, if value = 1 then .readWait else .readLeave⟩⟩ := by
  have sum := invariant.exact_
  have isValue : value = system.lock.readerCount + 1 := invariant.knows i _ here
  have one := invariant.inside i _ here rfl
  change _ + (decide (0 < system.lock.readerCount)).toNat = 1 at one
  have more : value + ((reads : Nat) : Int) =
      system.lock.readerCount + ((reads + 1 : Nat) : Int) := by
    omega
  by_cases first : value = 1
  · rw [if_pos first]
    rw [decide_eq_false (by omega)] at one
    exact invariant.moves here (invariant.alone here rfl) _ _ more
      (fun _ => invariant.owned i _ here rfl) first rfl one invariant.held
  · rw [if_neg first]
    rw [decide_eq_true (by omega)] at one
    refine invariant.moves here (invariant.alone here rfl) _ _ more
      (fun _ => invariant.owned i _ here rfl) trivial rfl ?_ invariant.held
    change _ + (decide (0 < value)).toNat = 1
    rw [decide_eq_true (by omega)]
    exact one

/-- The first reader takes the semaphore for all of them. -/
theorem Invariant.readWait (invariant : Invariant system)
    (here : system.threads[i]? = some ⟨reads, writing, .readWait⟩)
    (free : 0 < system.lock.dataLock) :
    Invariant ⟨{ system.lock with dataLock := system.lock.dataLock - 1 },
      system.threads.set i ⟨reads, writing, .readLeave⟩⟩ := by
  have isFirst : system.lock.readerCount = 1 := invariant.knows i _ here
  have one := invariant.inside i _ here rfl
  refine invariant.moves here (invariant.alone here rfl) _ _ rfl
    (fun _ => invariant.owned i _ here rfl) trivial rfl ?_ invariant.held
  change _ + 0 = 1 at one
  change system.lock.dataLock - 1 + _ + (decide (0 < system.lock.readerCount)).toNat = 1
  rw [decide_eq_true (by omega)]
  change system.lock.dataLock - 1 + total writes system.threads + 1 = 1
  omega

theorem Invariant.unlockStore (invariant : Invariant system)
    (here : system.threads[i]? = some ⟨reads, writing, .unlockStore value⟩) :
    Invariant ⟨{ system.lock with readerCount := value },
      system.threads.set i
        ⟨reads - 1, writing, if value = 0 then .unlockRelease else .unlockLeave⟩⟩ := by
  have sum := invariant.exact_
  have own := le_total counted system.threads i _ here
  obtain ⟨isValue, inSection⟩ : value = system.lock.readerCount - 1 ∧ 0 < reads :=
    invariant.knows i _ here
  change reads + 0 ≤ _ at own
  have one := invariant.inside i _ here rfl
  change _ + (decide (0 < system.lock.readerCount)).toNat = 1 at one
  rw [decide_eq_true (by omega)] at one
  have less : value + ((reads : Nat) : Int) =
      system.lock.readerCount + ((reads - 1 : Nat) : Int) := by
    omega
  by_cases last : value = 0
  · rw [if_pos last]
    exact invariant.moves here (invariant.alone here rfl) _ _ less
      (fun _ => invariant.owned i _ here rfl) last rfl one invariant.held
  · rw [if_neg last]
    refine invariant.moves here (invariant.alone here rfl) _ _ less
      (fun _ => invariant.owned i _ here rfl) trivial rfl ?_ invariant.held
    change _ + (decide (0 < value)).toNat = 1
    rw [decide_eq_true (by omega)]
    exact one

/-- The last reader finds the semaphore held. -/
theorem Invariant.unlockRelease (invariant : Invariant system)
    (here : system.threads[i]? = some ⟨reads, writing, .unlockRelease⟩) :
    Invariant ⟨system.lock.release, system.threads.set i ⟨reads, writing, .unlockLeave⟩⟩ := by
  have isLast : system.lock.readerCount = 0 := invariant.knows i _ here
  have one := invariant.inside i _ here rfl
  change _ + 1 = 1 at one
  rw [release_held system.lock (by omega)]
  refine invariant.moves here (invariant.alone here rfl) _ _ rfl
    (fun _ => invariant.owned i _ here rfl) trivial rfl ?_ invariant.held
  change 1 + total writes system.threads + (decide (0 < system.lock.readerCount)).toNat = 1
  rw [decide_eq_false (by omega)]
  change 1 + total writes system.threads + 0 = 1
  omega

theorem Invariant.writeRelease (invariant : Invariant system)
    (here : system.threads[i]? = some ⟨reads, writing, .writeRelease⟩) :
    Invariant ⟨system.lock.release, system.threads.set i ⟨reads, false, .outside⟩⟩ := by
  have writer := le_total writes system.threads i _ here
  have isWriter : writing = true := invariant.knows i _ here
  subst isWriter
  change 1 ≤ _ at writer
  have most := invariant.atMostOne
  have taken : system.lock.dataLock = 0 := by omega
  rw [release_held system.lock taken]
  refine invariant.keeps here _ _ rfl rfl rfl rfl rfl trivial ?_ invariant.held
  rw [taken]
  rfl

end Steps

theorem Invariant.advance (invariant : Invariant system)
    (here : system.threads[i]? = some thread) (lock : RWLock) (moved : Thread)
    (stepped : RWLock.advance i system.lock thread = some (lock, moved)) :
    Invariant ⟨lock, system.threads.set i moved⟩ := by
  have knows := invariant.knows i thread here
  obtain ⟨reads, writing, point⟩ := thread
  cases point with
  | outside => cases stepped
  | readEnter =>
      simp only [RWLock.advance] at stepped
      split at stepped
      · rename_i free
        cases stepped
        exact invariant.enters here free _ rfl trivial rfl rfl
      · cases stepped
  | readLoad =>
      cases stepped
      have one := invariant.inside i _ here rfl
      exact invariant.moves here (invariant.alone here rfl) _ _ rfl
        (fun _ => invariant.owned i _ here rfl) rfl rfl one invariant.held
  | readStore value =>
      cases stepped
      exact invariant.readStore here
  | readWait =>
      simp only [RWLock.advance] at stepped
      split at stepped
      · rename_i free
        cases stepped
        exact invariant.readWait here free
      · cases stepped
  | readLeave =>
      cases stepped
      have one := invariant.inside i _ here rfl
      refine invariant.moves here (invariant.alone here rfl) _ _ ?_
        (fun impossible => by cases impossible) trivial rfl one invariant.held
      rfl
  | unlockEnter =>
      simp only [RWLock.advance] at stepped
      split at stepped
      · rename_i free
        cases stepped
        exact invariant.enters here free _ rfl knows rfl rfl
      · cases stepped
  | unlockLoad =>
      cases stepped
      have one := invariant.inside i _ here rfl
      exact invariant.moves here (invariant.alone here rfl) _ _ rfl
        (fun _ => invariant.owned i _ here rfl) ⟨rfl, knows⟩ rfl one invariant.held
  | unlockStore value =>
      cases stepped
      exact invariant.unlockStore here
  | unlockRelease =>
      cases stepped
      exact invariant.unlockRelease here
  | unlockLeave =>
      cases stepped
      have one := invariant.inside i _ here rfl
      exact invariant.moves here (invariant.alone here rfl) _ _ rfl
        (fun impossible => by cases impossible) trivial rfl one invariant.held
  | writeWait =>
      simp only [RWLock.advance] at stepped
      split at stepped
      · rename_i free
        cases stepped
        exact invariant.takes here free rfl fun _ => rfl
      · cases stepped
  | writeTry =>
      simp only [RWLock.advance] at stepped
      split at stepped
      · rename_i free
        cases stepped
        exact invariant.takes here free rfl fun _ => rfl
      · cases stepped
        exact invariant.keeps here _ _ rfl rfl rfl rfl rfl trivial rfl invariant.held
  | writeRelease =>
      cases stepped
      exact invariant.writeRelease here

theorem Invariant.call (invariant : Invariant system) (here : system.threads[i]? = some thread)
    (outside : thread.point = .outside) (function : Call) (called : Thread)
    (entered : enterFunction thread function = some called) :
    Invariant { system with threads := system.threads.set i called } := by
  obtain ⟨reads, writing, point⟩ := thread
  change point = .outside at outside
  subst outside
  have kept : ∀ moved : Thread, inMutex moved.point = false →
      counted moved = counted ⟨reads, writing, .outside⟩ →
      Knows system.lock.readerCount moved → moved.writing = writing →
      Invariant ⟨system.lock, system.threads.set i moved⟩ := by
    intro moved remains sections knows same
    refine invariant.keeps here system.lock moved rfl remains rfl rfl sections knows ?_
      invariant.held
    rw [writes, same]
    rfl
  cases function with
  | readLock =>
      cases entered
      exact kept _ rfl rfl trivial rfl
  | readUnlock =>
      simp only [enterFunction] at entered
      split at entered
      · rename_i inSection
        cases entered
        exact kept _ rfl rfl inSection rfl
      · cases entered
  | writeLock =>
      cases entered
      exact kept _ rfl rfl trivial rfl
  | writeTryLock =>
      cases entered
      exact kept _ rfl rfl trivial rfl
  | writeUnlock =>
      simp only [enterFunction] at entered
      split at entered
      · rename_i inSection
        cases entered
        exact kept _ rfl rfl inSection rfl
      · cases entered

end Moves

theorem Invariant.step (system next : System) (event : Event) (invariant : Invariant system)
    (stepped : step system event = some next) : Invariant next := by
  cases event with
  | call i function =>
      simp only [RWLock.step, Option.bind_eq_bind, Option.bind_eq_some_iff] at stepped
      obtain ⟨thread, here, stepped⟩ := stepped
      split at stepped
      · rename_i outside
        obtain ⟨called, entered, isNext⟩ := Option.bind_eq_some_iff.mp stepped
        cases isNext
        exact invariant.call here outside function called entered
      · cases stepped
  | advance i =>
      simp only [RWLock.step, Option.bind_eq_bind, Option.bind_eq_some_iff] at stepped
      obtain ⟨thread, here, ⟨lock, moved⟩, advanced, isNext⟩ := stepped
      cases isNext
      exact invariant.advance here lock moved advanced

/-- While some thread writes no thread reads; the counter is zero, or one for a
reader who waits. -/
theorem Invariant.noReader {system : System} (invariant : Invariant system)
    (writing : 0 < total writes system.threads) (j : Nat) (other : Thread)
    (there : system.threads[j]? = some other) : other.reads = 0 := by
  have sum := invariant.exact_
  have own := le_total counted system.threads j other there
  have section_ : other.reads ≤ counted other := Nat.le_add_right _ _
  by_cases nobody : ∀ (i : Nat) (thread : Thread), system.threads[i]? = some thread →
      inMutex thread.point = false
  · have one := invariant.empty nobody
    have none_ : (decide (0 < system.lock.readerCount)).toNat = 0 := by omega
    have zero : ¬ 0 < system.lock.readerCount :=
      of_decide_eq_false (Bool.toNat_eq_zero.mp none_)
    omega
  · simp only [not_forall, Bool.not_eq_false] at nobody
    obtain ⟨i, thread, here, inside⟩ := nobody
    have one := invariant.inside i thread here inside
    have none_ : readersHold system.lock.readerCount thread.point = false :=
      Bool.toNat_eq_zero.mp (by omega)
    have knows := invariant.knows i thread here
    by_cases waits : thread.point = .readWait
    · rw [Knows, waits] at knows
      change system.lock.readerCount = 1 at knows
      have pending : counted thread = thread.reads + 1 := by rw [counted, waits]
      by_cases same : j = i
      · subst same
        rw [here, Option.some.injEq] at there
        rw [← there] at own ⊢
        omega
      · have both := add_le_total counted system.threads i j thread other (Ne.symm same) here there
        omega
    · have zero : ¬ 0 < system.lock.readerCount := by
        intro positive
        unfold readersHold at none_
        split at none_
        · exact waits ‹_›
        · cases none_
        · rw [decide_eq_true positive] at none_
          cases none_
      omega

theorem Invariant.correct (system : System) (invariant : Invariant system) : Correct system := by
  constructor
  · intro i j writer other differ here there writing
    have writers := add_le_total writes system.threads i j writer other differ here there
    have most := invariant.atMostOne
    have one : writes writer = 1 := congrArg Bool.toNat writing
    constructor
    · apply Bool.eq_false_iff.mpr
      intro also
      have two : writes other = 1 := congrArg Bool.toNat also
      omega
    · exact invariant.noReader (by omega) j other there
  · exact invariant.exact_
  · intro light
    rw [invariant.exact_, total_eq_countP counted system.threads light]
  · exact invariant.held

/-- Every interleaving of the steps of any number of threads. -/
theorem correct_throughout (count : Nat) (events : List Event) :
    machine.Throughout Correct (start count) events := by
  refine machine.throughout_of_guarded Invariant Correct (fun _ _ => True) ?_
    Invariant.correct events (start count) (start_invariant count) ?_
  · intro system event next invariant _ stepped
    exact Invariant.step system next event invariant stepped
  · exact machine.guarded_of_step _ (fun _ _ _ _ => trivial) events (start count)

end RWLock

end AuthServer
