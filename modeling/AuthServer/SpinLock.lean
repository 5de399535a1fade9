/-
`CLock`, entered by any number of threads.

A lock of type `eCustomSpinLock` is a word that `InterlockedExchange` sets: the
first exchange is made in `Enter`, the others in the three loops of `Wait`.  The
other types are critical sections, which their owner may enter again.  A thread
leaves a lock only when it is inside, as every caller does.
-/

import AuthServer.Lib.EventRuns
import Mathlib.Logic.Function.Basic

set_option autoImplicit false

namespace AuthServer

inductive LockType where
  | eCriticalSection
  | eSystemSpinLock
  | eCustomSpinLock
  deriving DecidableEq

structure CLock (Thread : Type) where
  m_type : LockType
  m_customLock : UInt32
  m_critical : Option (Thread × Nat)

/-- Where a call of `Enter` stands: in front of its own exchange, or of one in a
loop of `Wait` with that `count`. -/
inductive LockTries where
  | first
  | spinning (count : Nat)
  | yielding (count : Nat)
  | sleeping
  deriving DecidableEq

def LockTries.failed : LockTries → LockTries
  | .first => .spinning 3999
  | .spinning (count + 1) => .spinning count
  | .spinning 0 => .yielding 3999
  | .yielding (count + 1) => .yielding count
  | .yielding 0 => .sleeping
  | .sleeping => .sleeping

namespace CLock

variable {Thread : Type}

def create (type : LockType) (memory : UInt32) : CLock Thread where
  m_type := type
  m_customLock := if type = .eCustomSpinLock then 0 else memory
  m_critical := none

def exchange (lock : CLock Thread) (value : UInt32) : UInt32 × CLock Thread :=
  (lock.m_customLock, { lock with m_customLock := value })

def TryEnter (lock : CLock Thread) : Bool × CLock Thread :=
  if lock.m_type = .eCustomSpinLock then ((lock.exchange 1).1 == 0, (lock.exchange 1).2)
  else (false, lock)

def Leave (lock : CLock Thread) : CLock Thread :=
  if lock.m_type = .eCustomSpinLock then (lock.exchange 0).2
  else
    { lock with
      m_critical := lock.m_critical.bind fun (owner, count) =>
        if count = 1 then none else some (owner, count - 1) }

section Operations

variable [DecidableEq Thread]

def enterCritical (lock : CLock Thread) (thread : Thread) : Option (CLock Thread) :=
  match lock.m_critical with
  | none => some { lock with m_critical := some (thread, 1) }
  | some (owner, count) =>
      if owner = thread then some { lock with m_critical := some (owner, count + 1) } else none

/-- What `Enter` does next: the lock, and where the call stands after it, or none
when the thread is inside. -/
def attempt (lock : CLock Thread) (thread : Thread) (tries : LockTries) :
    Option (CLock Thread × Option LockTries) :=
  if lock.m_type = .eCustomSpinLock then
    some ((lock.exchange 1).2, if (lock.exchange 1).1 = 0 then none else some tries.failed)
  else (lock.enterCritical thread).map fun entered => (entered, none)

end Operations

/-- That thread is inside so many times, and the others are not. -/
structure Sole (depth : Thread → Nat) (thread : Thread) (count : Nat) : Prop where
  here : depth thread = count
  others : ∀ other, other ≠ thread → depth other = 0

/-- The lock says who is inside how often. -/
inductive Guards (lock : CLock Thread) (depth : Thread → Nat) : Prop where
  | spinFree (spins : lock.m_type = .eCustomSpinLock) (free : lock.m_customLock = 0)
      (empty : ∀ thread, depth thread = 0)
  | spinHeld (spins : lock.m_type = .eCustomSpinLock) (taken : lock.m_customLock = 1)
      (thread : Thread) (sole : Sole depth thread 1)
  | criticalFree (blocks : lock.m_type ≠ .eCustomSpinLock) (free : lock.m_critical = none)
      (empty : ∀ thread, depth thread = 0)
  | criticalHeld (blocks : lock.m_type ≠ .eCustomSpinLock) (thread : Thread) (count : Nat)
      (taken : lock.m_critical = some (thread, count + 1)) (sole : Sole depth thread (count + 1))

variable {lock : CLock Thread} {depth : Thread → Nat}

theorem create_guards (type : LockType) (memory : UInt32) :
    Guards (create type memory : CLock Thread) fun _ => 0 := by
  by_cases spins : type = .eCustomSpinLock
  · exact .spinFree spins (if_pos spins) fun _ => rfl
  · exact .criticalFree spins rfl fun _ => rfl

theorem Sole.unique {thread first : Thread} {count : Nat} (sole : Sole depth thread count)
    (inside : 0 < depth first) : first = thread := by
  by_contra other
  rw [sole.others first other] at inside
  exact Nat.lt_irrefl 0 inside

theorem Guards.exclusive (guards : Guards lock depth) (first second : Thread)
    (atFirst : 0 < depth first) (atSecond : 0 < depth second) : first = second := by
  cases guards with
  | spinFree _ _ empty => exact absurd (empty first) (Nat.ne_of_gt atFirst)
  | spinHeld _ _ thread sole => rw [sole.unique atFirst, sole.unique atSecond]
  | criticalFree _ _ empty => exact absurd (empty first) (Nat.ne_of_gt atFirst)
  | criticalHeld _ thread _ _ sole => rw [sole.unique atFirst, sole.unique atSecond]

section Steps

variable [DecidableEq Thread]

theorem sole_update (thread : Thread) (count : Nat)
    (others : ∀ other, other ≠ thread → depth other = 0) :
    Sole (Function.update depth thread count) thread count := by
  refine ⟨Function.update_self thread count depth, fun other away => ?_⟩
  rw [Function.update_of_ne away]
  exact others other away

theorem empty_update (thread : Thread) (others : ∀ other, other ≠ thread → depth other = 0)
    (other : Thread) : Function.update depth thread 0 other = 0 := by
  by_cases here : other = thread
  · rw [here, Function.update_self]
  · rw [Function.update_of_ne here]
    exact others other here

/-- An exchange of a spin lock: in, where nobody was inside, or not in. -/
theorem Guards.exchanged (guards : Guards lock depth) (spins : lock.m_type = .eCustomSpinLock)
    (thread : Thread) :
    (lock.exchange 1).1 = 0 ∧ (∀ other, depth other = 0) ∧
        Guards (lock.exchange 1).2 (Function.update depth thread (depth thread + 1)) ∨
      (lock.exchange 1).1 ≠ 0 ∧ Guards (lock.exchange 1).2 depth := by
  cases guards with
  | spinFree _ free empty =>
      refine Or.inl ⟨free, empty, ?_⟩
      rw [empty thread]
      exact .spinHeld spins rfl thread (sole_update thread 1 fun other _ => empty other)
  | spinHeld _ taken holder sole =>
      refine Or.inr ⟨fun free => ?_, .spinHeld spins rfl holder sole⟩
      have same : (1 : UInt32) = 0 := taken.symm.trans free
      exact absurd same (by decide)
  | criticalFree blocks _ _ => exact absurd spins blocks
  | criticalHeld blocks _ _ _ _ => exact absurd spins blocks

theorem Guards.enteredCritical (guards : Guards lock depth)
    (blocks : lock.m_type ≠ .eCustomSpinLock) (thread : Thread) (entered : CLock Thread)
    (got : lock.enterCritical thread = some entered) :
    Guards entered (Function.update depth thread (depth thread + 1)) := by
  rw [enterCritical] at got
  cases guards with
  | spinFree spins _ _ => exact absurd spins blocks
  | spinHeld spins _ _ _ => exact absurd spins blocks
  | criticalFree _ free empty =>
      rw [free] at got
      cases got
      rw [empty thread]
      exact .criticalHeld blocks thread 0 rfl (sole_update thread 1 fun other _ => empty other)
  | criticalHeld _ owner count taken sole =>
      rw [taken] at got
      dsimp only at got
      by_cases mine : owner = thread
      · subst mine
        rw [if_pos rfl] at got
        cases got
        rw [sole.here]
        exact .criticalHeld blocks owner (count + 1) rfl
          (sole_update owner (count + 1 + 1) sole.others)
      · rw [if_neg mine] at got
        cases got

theorem Guards.attempted (guards : Guards lock depth) (thread : Thread) (tries : LockTries)
    (after : CLock Thread) (place : Option LockTries)
    (got : lock.attempt thread tries = some (after, place)) :
    place = none ∧ Guards after (Function.update depth thread (depth thread + 1)) ∨
      place = some tries.failed ∧ Guards after depth := by
  rw [attempt] at got
  by_cases spins : lock.m_type = .eCustomSpinLock
  · rw [if_pos spins] at got
    cases got
    rcases guards.exchanged spins thread with ⟨free, _, entered⟩ | ⟨taken, kept⟩
    · exact Or.inl ⟨if_pos free, entered⟩
    · exact Or.inr ⟨if_neg taken, kept⟩
  · rw [if_neg spins] at got
    obtain ⟨entered, isEntered, same⟩ := Option.map_eq_some_iff.mp got
    cases same
    exact Or.inl ⟨rfl, guards.enteredCritical spins thread after isEntered⟩

theorem Guards.tried (guards : Guards lock depth) (thread : Thread) :
    Guards lock.TryEnter.2
      (if lock.TryEnter.1 then Function.update depth thread (depth thread + 1) else depth) := by
  rw [TryEnter]
  by_cases spins : lock.m_type = .eCustomSpinLock
  · rw [if_pos spins]
    rcases guards.exchanged spins thread with ⟨free, _, entered⟩ | ⟨taken, kept⟩
    · rw [if_pos (beq_iff_eq.mpr free)]
      exact entered
    · rw [if_neg fun free => taken (beq_iff_eq.mp free)]
      exact kept
  · rw [if_neg spins]
    exact guards

theorem Guards.left (guards : Guards lock depth) (thread : Thread) (inside : 0 < depth thread) :
    Guards lock.Leave (Function.update depth thread (depth thread - 1)) := by
  rw [Leave]
  cases guards with
  | spinFree _ _ empty => exact absurd (empty thread) (Nat.ne_of_gt inside)
  | spinHeld spins _ holder sole =>
      obtain rfl := sole.unique inside
      rw [if_pos spins, sole.here]
      exact .spinFree spins rfl (empty_update thread sole.others)
  | criticalFree _ _ empty => exact absurd (empty thread) (Nat.ne_of_gt inside)
  | criticalHeld blocks owner count taken sole =>
      obtain rfl := sole.unique inside
      rw [if_neg blocks, sole.here, taken]
      cases count with
      | zero => exact .criticalFree blocks rfl (empty_update thread sole.others)
      | succ count =>
          exact .criticalHeld blocks thread count rfl (sole_update thread (count + 1) sole.others)

end Steps

end CLock

structure LockSystem (Thread : Type) where
  lock : CLock Thread
  depth : Thread → Nat
  tries : Thread → Option LockTries

inductive LockEvent (Thread : Type) where
  | enter (thread : Thread)
  | attempt (thread : Thread)
  | tryEnter (thread : Thread)
  | leave (thread : Thread)

namespace LockSystem

open CLock

variable {Thread : Type}

def start (type : LockType) (memory : UInt32) : LockSystem Thread :=
  ⟨create type memory, fun _ => 0, fun _ => none⟩

section Runs

variable [DecidableEq Thread]

def step (system : LockSystem Thread) : LockEvent Thread → Option (LockSystem Thread)
  | .enter thread =>
      match system.tries thread with
      | none => some { system with tries := Function.update system.tries thread (some .first) }
      | some _ => none
  | .attempt thread =>
      match system.tries thread with
      | none => none
      | some tries =>
          (system.lock.attempt thread tries).map fun (after, place) =>
            { lock := after
              depth :=
                if place = none then
                  Function.update system.depth thread (system.depth thread + 1)
                else system.depth
              tries := Function.update system.tries thread place }
  | .tryEnter thread =>
      match system.tries thread with
      | none =>
          some
            { system with
              lock := system.lock.TryEnter.2
              depth :=
                if system.lock.TryEnter.1 then
                  Function.update system.depth thread (system.depth thread + 1)
                else system.depth }
      | some _ => none
  | .leave thread =>
      match system.tries thread with
      | none =>
          if 0 < system.depth thread then
            some
              { system with
                lock := system.lock.Leave
                depth := Function.update system.depth thread (system.depth thread - 1) }
          else none
      | some _ => none

def machine : EventRuns.Machine (LockSystem Thread) (LockEvent Thread) := ⟨step⟩

theorem step_guards (system : LockSystem Thread) (event : LockEvent Thread)
    (next : LockSystem Thread) (guards : Guards system.lock system.depth)
    (stepped : machine.step system event = some next) : Guards next.lock next.depth := by
  cases event with
  | enter thread =>
      simp only [machine, step] at stepped
      split at stepped
      · cases stepped
        exact guards
      · contradiction
  | attempt thread =>
      simp only [machine, step] at stepped
      split at stepped
      · contradiction
      · rename_i tries _
        obtain ⟨⟨after, place⟩, got, same⟩ := Option.map_eq_some_iff.mp stepped
        cases same
        rcases guards.attempted thread tries after place got with
          ⟨inside, entered⟩ | ⟨waits, kept⟩
        · rw [if_pos inside]
          exact entered
        · rw [if_neg (waits ▸ nofun)]
          exact kept
  | tryEnter thread =>
      simp only [machine, step] at stepped
      split at stepped
      · cases stepped
        exact guards.tried thread
      · contradiction
  | leave thread =>
      simp only [machine, step] at stepped
      split at stepped
      · split at stepped
        · rename_i inside
          cases stepped
          exact guards.left thread inside
        · contradiction
      · contradiction

theorem reached_guards (type : LockType) (memory : UInt32) (events : List (LockEvent Thread))
    (system : LockSystem Thread) (ran : machine.run (start type memory) events = some system) :
    Guards system.lock system.depth :=
  machine.run_invariant (fun system => Guards system.lock system.depth) step_guards events _
    system (create_guards type memory) ran

/-- One thread at most is inside, and a spin lock is free exactly when none is. -/
structure Exclusive (system : LockSystem Thread) : Prop where
  sole : ∀ first second, 0 < system.depth first → 0 < system.depth second → first = second
  once : system.lock.m_type = .eCustomSpinLock → ∀ thread, system.depth thread ≤ 1
  word : system.lock.m_type = .eCustomSpinLock →
    (system.lock.m_customLock = 0 ↔ ∀ thread, system.depth thread = 0)

theorem guards_exclusive (system : LockSystem Thread) (guards : Guards system.lock system.depth) :
    Exclusive system := by
  refine ⟨guards.exclusive, fun spins => ?_, fun spins => ?_⟩
  · cases guards with
    | spinFree _ _ empty =>
        intro thread
        exact Nat.le_trans (Nat.le_of_eq (empty thread)) (Nat.zero_le 1)
    | spinHeld _ _ holder sole =>
        intro thread
        by_cases here : thread = holder
        · exact Nat.le_of_eq (here ▸ sole.here)
        · exact Nat.le_trans (Nat.le_of_eq (sole.others thread here)) (Nat.zero_le 1)
    | criticalFree blocks _ _ => exact absurd spins blocks
    | criticalHeld blocks _ _ _ _ => exact absurd spins blocks
  · cases guards with
    | spinFree _ free empty => exact iff_of_true free empty
    | spinHeld _ taken holder sole =>
        refine iff_of_false (fun free => ?_) fun empty => ?_
        · have same : (1 : UInt32) = 0 := taken.symm.trans free
          exact absurd same (by decide)
        · exact absurd (sole.here.symm.trans (empty holder)) Nat.one_ne_zero
    | criticalFree blocks _ _ => exact absurd spins blocks
    | criticalHeld blocks _ _ _ _ => exact absurd spins blocks

/-- Whatever threads enter, try, spin and leave in whatever order, one at most is
inside the lock. -/
theorem exclusive_throughout (type : LockType) (memory : UInt32)
    (events : List (LockEvent Thread)) :
    machine.Throughout Exclusive (start type memory) events :=
  machine.throughout_of_guarded (fun system => Guards system.lock system.depth) Exclusive
    (fun _ _ => True) (fun system event next guards _ => step_guards system event next guards)
    guards_exclusive events _ (create_guards type memory)
    (machine.guarded_of_step _ (fun _ _ _ _ => trivial) events _)

/-! ### Entering again -/

theorem step_type (system : LockSystem Thread) (event : LockEvent Thread)
    (next : LockSystem Thread) (stepped : machine.step system event = some next) :
    next.lock.m_type = system.lock.m_type := by
  cases event with
  | enter thread =>
      simp only [machine, step] at stepped
      split at stepped
      · cases stepped
        rfl
      · contradiction
  | attempt thread =>
      simp only [machine, step] at stepped
      split at stepped
      · contradiction
      · obtain ⟨⟨after, place⟩, got, same⟩ := Option.map_eq_some_iff.mp stepped
        cases same
        rw [attempt] at got
        split at got
        · cases got
          rfl
        · obtain ⟨entered, isEntered, same⟩ := Option.map_eq_some_iff.mp got
          cases same
          rw [enterCritical] at isEntered
          split at isEntered
          · cases isEntered
            rfl
          · split at isEntered
            · cases isEntered
              rfl
            · contradiction
  | tryEnter thread =>
      simp only [machine, step] at stepped
      split at stepped
      · cases stepped
        rw [TryEnter]
        split
        · rfl
        · rfl
      · contradiction
  | leave thread =>
      simp only [machine, step] at stepped
      split at stepped
      · split at stepped
        · cases stepped
          rw [Leave]
          split
          · rfl
          · rfl
        · contradiction
      · contradiction

structure Stuck (thread : Thread) (system : LockSystem Thread) : Prop where
  spins : system.lock.m_type = .eCustomSpinLock
  guards : Guards system.lock system.depth
  inside : 0 < system.depth thread
  waits : (system.tries thread).isSome

theorem Stuck.taken {thread : Thread} {system : LockSystem Thread} (stuck : Stuck thread system) :
    system.lock.m_customLock ≠ 0 := by
  intro free
  have empty := ((guards_exclusive system stuck.guards).word stuck.spins).mp free
  exact Nat.ne_of_gt stuck.inside (empty thread)

theorem update_isSome {tries : Thread → Option LockTries} {thread : Thread}
    (waits : (tries thread).isSome) (other : Thread) (place : LockTries) :
    (Function.update tries other (some place) thread).isSome := by
  by_cases here : thread = other
  · rw [here, Function.update_self]
    rfl
  · rw [Function.update_of_ne here]
    exact waits

/-- The word stays taken, for only the waiting thread could clear it. -/
theorem Stuck.step {thread : Thread} {system : LockSystem Thread} (stuck : Stuck thread system)
    (event : LockEvent Thread) (next : LockSystem Thread)
    (stepped : machine.step system event = some next) : Stuck thread next := by
  have typed := (step_type system event next stepped).trans stuck.spins
  have guards := step_guards system event next stuck.guards stepped
  cases event with
  | enter other =>
      simp only [machine, LockSystem.step] at stepped
      split at stepped
      · cases stepped
        exact ⟨typed, guards, stuck.inside, update_isSome stuck.waits other .first⟩
      · contradiction
  | attempt other =>
      simp only [machine, LockSystem.step] at stepped
      split at stepped
      · contradiction
      · rename_i tries _
        rw [attempt, if_pos stuck.spins, exchange] at stepped
        dsimp only [Option.map_some] at stepped
        rw [if_neg stuck.taken, if_neg (Option.some_ne_none _)] at stepped
        cases stepped
        exact ⟨typed, guards, stuck.inside, update_isSome stuck.waits other tries.failed⟩
  | tryEnter other =>
      simp only [machine, LockSystem.step] at stepped
      split at stepped
      · have refused : system.lock.TryEnter.1 = false := by
          rw [TryEnter, if_pos stuck.spins]
          exact beq_eq_false_iff_ne.mpr stuck.taken
        rw [refused, if_neg Bool.false_ne_true] at stepped
        cases stepped
        exact ⟨typed, guards, stuck.inside, stuck.waits⟩
      · contradiction
  | leave other =>
      simp only [machine, LockSystem.step] at stepped
      split at stepped
      · rename_i outside
        split at stepped
        · rename_i inside
          obtain rfl := stuck.guards.exclusive other thread inside stuck.inside
          have waits := stuck.waits
          rw [outside] at waits
          cases waits
        · contradiction
      · contradiction

theorem type_of_run (type : LockType) (memory : UInt32) (events : List (LockEvent Thread))
    (system : LockSystem Thread) (ran : machine.run (start type memory) events = some system) :
    system.lock.m_type = type :=
  machine.run_invariant (fun system => system.lock.m_type = type)
    (fun state event next typed stepped => (step_type state event next stepped).trans typed)
    events _ system rfl ran

theorem enterCritical_again {lock : CLock Thread} {depth : Thread → Nat}
    (guards : Guards lock depth) (blocks : lock.m_type ≠ .eCustomSpinLock) (thread : Thread)
    (inside : 0 < depth thread) : ∃ entered, lock.enterCritical thread = some entered := by
  rw [enterCritical]
  cases guards with
  | spinFree spins _ _ => exact absurd spins blocks
  | spinHeld spins _ _ _ => exact absurd spins blocks
  | criticalFree _ _ empty => exact absurd (empty thread) (Nat.ne_of_gt inside)
  | criticalHeld _ owner count taken sole =>
      obtain rfl := sole.unique inside
      rw [taken]
      dsimp only
      rw [if_pos rfl]
      exact ⟨_, rfl⟩

/-- A thread that enters the lock it is inside of gets in at once where the lock is a
critical section; in a spin lock it waits for ever, and nobody gets in any more. -/
theorem reentry (type : LockType) (memory : UInt32) (events : List (LockEvent Thread))
    (system : LockSystem Thread) (ran : machine.run (start type memory) events = some system)
    (thread : Thread) (inside : 0 < system.depth thread)
    (waits : (system.tries thread).isSome) :
    if type = .eCustomSpinLock then
      ∀ more, machine.Throughout
        (fun later => (later.tries thread).isSome ∧
          ∀ other, other ≠ thread → later.depth other = 0) system more
    else
      ∃ next, machine.step system (.attempt thread) = some next ∧
        next.depth thread = system.depth thread + 1 ∧ next.tries thread = none := by
  have guards := reached_guards type memory events system ran
  have typed := type_of_run type memory events system ran
  by_cases spins : type = .eCustomSpinLock
  · rw [if_pos spins]
    intro more
    refine machine.throughout_of_guarded (Stuck thread) _ (fun _ _ => True)
      (fun _ event next stuck _ => stuck.step event next) (fun later stuck => ?_) more system
      ⟨typed.trans spins, guards, inside, waits⟩
      (machine.guarded_of_step _ (fun _ _ _ _ => trivial) more _)
    refine ⟨stuck.waits, fun other away => ?_⟩
    by_contra there
    exact away (stuck.guards.exclusive other thread (Nat.pos_of_ne_zero there) stuck.inside)
  · rw [if_neg spins]
    rw [← typed] at spins
    obtain ⟨tries, at_⟩ := Option.isSome_iff_exists.mp waits
    obtain ⟨entered, got⟩ := enterCritical_again guards spins thread inside
    have attempted : system.lock.attempt thread tries = some (entered, none) := by
      rw [attempt, if_neg spins, got, Option.map_some]
    refine ⟨⟨entered, Function.update system.depth thread (system.depth thread + 1),
      Function.update system.tries thread none⟩, ?_, Function.update_self thread _ _,
      Function.update_self thread _ _⟩
    simp only [machine, step, at_, attempted, Option.map_some, if_true]

theorem reentry_both :
    machine.Throughout
      (fun later => (later.tries 0).isSome ∧ ∀ other, other ≠ 0 → later.depth other = 0)
      ⟨⟨.eCustomSpinLock, 1, none⟩, Function.update (fun _ => 0) 0 1,
        Function.update (Function.update (Function.update (fun _ => none) 0 (some .first)) 0 none)
          0 (some .first)⟩ [.enter 1, .attempt 1, .attempt 0, .attempt 1] ∧
    ∃ next, machine.step
        ⟨⟨.eCriticalSection, 7, some (0, 1)⟩, Function.update (fun _ => 0) 0 1,
          Function.update (Function.update (Function.update (fun _ => none) 0 (some .first)) 0
            none) 0 (some .first)⟩ (.attempt 0) = some next ∧
      next.depth 0 = 2 ∧ next.tries 0 = none := by
  constructor
  · have stuck := reentry .eCustomSpinLock 0 [.enter 0, .attempt 0, .enter 0] _ rfl 0
      (by decide) (by decide)
    rw [if_pos rfl] at stuck
    exact stuck _
  · have again := reentry .eCriticalSection 7 [.enter 0, .attempt 0, .enter 0] _ rfl 0
      (by decide) (by decide)
    rw [if_neg (by decide)] at again
    exact again

end Runs

end LockSystem

end AuthServer
