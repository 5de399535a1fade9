/-
The references on the objects whose timers are queued.

`RegisterTimer` pushes first and counts afterwards.  Inside a callback nothing
can come between, the thread that would fire the timer being the one that is
busy with it.  Any other thread has let go of the lock before it counts, and
the timer thread may fire the timer and give back a reference that is not the
timer's.
-/

import AuthServer.TimerQueue

set_option autoImplicit false

namespace AuthServer

open EventRuns

/-- A `CIOObject`.  Besides its count: the references that others than the queue and
the callback own, the calls of `RegisterTimer` from other threads that have
pushed and not yet counted, each by one of these references, and whether the
object was deleted. -/
structure CIOObject where
  refcount : Int
  owned : Nat
  registering : Nat
  deleted : Bool

namespace CIOObject

def create : CIOObject := ⟨1, 1, 0, false⟩

def addRef (object : CIOObject) : CIOObject :=
  { object with refcount := object.refcount + 1 }

def releaseRef (object : CIOObject) : CIOObject :=
  { object with
    refcount := object.refcount - 1
    deleted := object.deleted || decide (object.refcount - 1 = 0) }

def share (object : CIOObject) : CIOObject :=
  { object.addRef with owned := object.owned + 1 }

def giveBack (object : CIOObject) : CIOObject :=
  { object.releaseRef with owned := object.owned - 1 }

def pushed (object : CIOObject) : CIOObject :=
  { object with registering := object.registering + 1 }

def registered (object : CIOObject) : CIOObject :=
  { object.addRef with registering := object.registering - 1 }

end CIOObject

/-- The last `RegisterTimer` of a callback: on the object that is called back, by
the reference it is called back with, or on one that the thread owns. -/
inductive Registration where
  | none
  | itself
  | other (object : Nat)
  | returned (answer : Bool)
  deriving DecidableEq

def Registration.Pending : Registration → Prop
  | .itself => True
  | .other _ => True
  | _ => False

instance (registration : Registration) : Decidable registration.Pending := by
  cases registration
  all_goals first
    | exact isTrue trivial
    | exact isFalse id

structure Callback where
  registration : Registration
  released : Bool

def Callback.start : Callback := ⟨.none, false⟩

def Phase.calling : Phase → Option Nat
  | .firing _ _ _ object _ _ => some object
  | _ => none

structure TimerObjects where
  job : CJob
  object : Nat → CIOObject
  callback : Callback

namespace TimerObjects

/-- What `RegisterTimer` has pushed and not counted in a callback, by the reference
that the callback was called with. -/
def addingItself (timers : TimerObjects) (object : Nat) : Nat :=
  if timers.job.phase.calling = some object ∧ timers.callback.registration = .itself then 1 else 0

/-- The same by an owner's reference. -/
def addingOther (timers : TimerObjects) (object : Nat) : Nat :=
  if timers.job.phase.calling ≠ none ∧ timers.callback.registration = .other object then 1 else 0

def Idle (timers : TimerObjects) (object : Nat) : Prop :=
  (timers.object object).registering + timers.addingOther object < (timers.object object).owned

instance (timers : TimerObjects) (object : Nat) : Decidable (timers.Idle object) :=
  inferInstanceAs (Decidable (_ < _))

def create (now spare : Nat) : TimerObjects where
  job := CJob.create now spare
  object := Function.update (fun _ => CIOObject.create) ioTopTimer ⟨1, 0, 0, false⟩
  callback := Callback.start

def change (timers : TimerObjects) (object : Nat) (by_ : CIOObject → CIOObject) :
    Nat → CIOObject :=
  Function.update timers.object object (by_ (timers.object object))

inductive Event where
  /-- `RunTimer` and `SetTerminate`, what their callbacks do apart. -/
  | run (event : CJob.Event)
  | pushTimer (object milisec reading grown : Nat)
  | addRef (object : Nat)
  | share (object : Nat)
  | giveBack (object : Nat)
  | callbackPush (object milisec grown : Nat)
  | callbackAddRef
  | callbackRelease

/-- A callback returns when it has released, or, as the top timer's, when
`RegisterTimer` has returned false. -/
def Returns (timers : TimerObjects) : Prop :=
  ¬ timers.callback.registration.Pending ∧
    (timers.callback.released = true ∨
      timers.job.phase.calling = some ioTopTimer ∧
        timers.callback.registration = .returned false)

instance (timers : TimerObjects) : Decidable timers.Returns := by
  unfold Returns
  infer_instance

/-- What the callbacks do is not among what `RunTimer` does. -/
def Lets (timers : TimerObjects) : CJob.Event → Prop
  | .pushTimer .. => False
  | .callbackPush .. => False
  | .callbackReturn _ => timers.Returns
  | _ => True

instance (timers : TimerObjects) (event : CJob.Event) : Decidable (timers.Lets event) :=
  match event with
  | .pushTimer .. | .callbackPush .. => isFalse id
  | .callbackReturn _ => inferInstanceAs (Decidable timers.Returns)
  | .advance _ | .readClock | .readTopTick | .enter _ | .setTerminate | .wake => isTrue trivial

def drained (objects : Nat → CIOObject) : List CIOTimer → Nat → CIOObject
  | [] => objects
  | timer :: rest =>
      drained (Function.update objects timer.object (objects timer.object).releaseRef) rest

def follow (timers : TimerObjects) (event : CJob.Event) (job : CJob) : TimerObjects where
  job := job
  object :=
    match event with
    | .wake => if timers.job.terminating then drained timers.object timers.job.queue else timers.object
    | _ => timers.object
  callback :=
    match event with
    | .enter _ => Callback.start
    | .callbackReturn _ => Callback.start
    | _ => timers.callback

def pushTimer (timers : TimerObjects) (object : Nat) (job : CJob) : TimerObjects :=
  { timers with
    job := job
    object :=
      if timers.job.terminating then timers.object else timers.change object CIOObject.pushed }

def callbackPush (timers : TimerObjects) (object : Nat) (job : CJob) : Option TimerObjects :=
  if timers.job.terminating then
    some { timers with
      job := job
      callback := { timers.callback with registration := .returned false } }
  else if timers.job.phase.calling = some object ∧ timers.callback.released = false then
    some { timers with
      job := job
      callback := { timers.callback with registration := .itself } }
  else if timers.Idle object then
    some { timers with
      job := job
      callback := { timers.callback with registration := .other object } }
  else none

def callbackAddRef (timers : TimerObjects) (current : Nat) : Option TimerObjects :=
  match timers.callback.registration with
  | .itself =>
      some { timers with
        object := timers.change current CIOObject.addRef
        callback := { timers.callback with registration := .returned true } }
  | .other object =>
      some { timers with
        object := timers.change object CIOObject.addRef
        callback := { timers.callback with registration := .returned true } }
  | _ => none

def Releases (timers : TimerObjects) (current : Nat) : Prop :=
  ¬ timers.callback.registration.Pending ∧ timers.callback.released = false ∧
    (current = ioTopTimer → timers.callback.registration = .returned true)

instance (timers : TimerObjects) (current : Nat) : Decidable (timers.Releases current) := by
  unfold Releases
  infer_instance

def step (timers : TimerObjects) : Event → Option TimerObjects
  | .run event =>
      if timers.Lets event then (timers.job.step event).map (timers.follow event) else none
  | .pushTimer object milisec reading grown =>
      if timers.Idle object then
        (timers.job.step (.pushTimer object milisec reading grown)).map (timers.pushTimer object)
      else none
  | .addRef object =>
      if 0 < (timers.object object).registering then
        some { timers with object := timers.change object CIOObject.registered }
      else none
  | .share object =>
      if 0 < (timers.object object).owned then
        some { timers with object := timers.change object CIOObject.share }
      else none
  | .giveBack object =>
      if timers.Idle object then
        some { timers with object := timers.change object CIOObject.giveBack }
      else none
  | .callbackPush object milisec grown =>
      if timers.callback.registration.Pending then none
      else (timers.job.step (.callbackPush object milisec grown)).bind (timers.callbackPush object)
  | .callbackAddRef => timers.job.phase.calling.bind timers.callbackAddRef
  | .callbackRelease =>
      timers.job.phase.calling.bind fun current =>
        if timers.Releases current then
          some { timers with
            object := timers.change current CIOObject.releaseRef
            callback := { timers.callback with released := true } }
        else none

def machine : Machine TimerObjects Event := ⟨step⟩

/-! ### What should be kept -/

def entries (queue : List CIOTimer) (object : Nat) : Nat :=
  queue.countP fun timer => decide (timer.object = object)

/-- The reference of a timer that was popped, while its callback has it. -/
def held (timers : TimerObjects) (object : Nat) : Nat :=
  if timers.job.phase.calling = some object ∧ timers.callback.released = false then 1 else 0

/-- With no pass on, the count covers the queue and the owners, and nothing is
deleted that is queued, owned, or in a call of `RegisterTimer`. -/
structure Kept (timers : TimerObjects) : Prop where
  counted : CJob.Phase.LockFree timers.job.phase → ∀ object,
    (entries timers.job.queue object : Int) + (timers.object object).owned ≤
      (timers.object object).refcount
  alive : ∀ object, (timers.object object).deleted = true →
    entries timers.job.queue object + (timers.object object).owned +
      (timers.object object).registering + timers.addingItself object +
      timers.addingOther object = 0

/-- Only callbacks register timers, until `SetTerminate`. -/
def FromCallbacks (timers : TimerObjects) : Event → Prop
  | .pushTimer .. => timers.job.terminating = true
  | _ => True

theorem entries_cons (timer : CIOTimer) (queue : List CIOTimer) (object : Nat) :
    entries (timer :: queue) object =
      entries queue object + if timer.object = object then 1 else 0 := by
  unfold entries
  rw [List.countP_cons]
  simp only [decide_eq_true_eq]

theorem entries_erase (queue : List CIOTimer) (top : CIOTimer) (member : top ∈ queue)
    (object : Nat) :
    entries queue object =
      entries (queue.erase top) object + if top.object = object then 1 else 0 := by
  rw [← entries_cons]
  exact (List.perm_cons_erase member).countP_eq _

/-! ### One object -/

/-- The count of one object against the timers queued, the reference its callback
has, its owners, and what `RegisterTimer` has yet to count in a callback. -/
structure Settled (terminating : Bool) (queued held itself other : Nat) (object : CIOObject) :
    Prop where
  counted : (queued : Int) + object.owned + held ≤ object.refcount + itself + other
  tight : terminating = false →
    object.refcount + itself + other ≤ queued + object.owned + held
  inside : object.registering = 0
  calling : itself ≤ held
  owning : other ≤ object.owned
  published : itself + other ≤ queued
  deleted : object.deleted = true → queued + object.owned + held = 0

namespace Settled

variable {terminating : Bool} {queued held itself other : Nat} {object : CIOObject}

theorem create : Settled false 0 0 0 0 CIOObject.create where
  counted := Int.le_refl _
  tight := fun _ => Int.le_refl _
  inside := rfl
  calling := Nat.le_refl 0
  owning := Nat.zero_le 1
  published := Nat.le_refl 0
  deleted := nofun

theorem create_top : Settled false 1 0 0 0 ⟨1, 0, 0, false⟩ where
  counted := Int.le_refl _
  tight := fun _ => Int.le_refl _
  inside := rfl
  calling := Nat.le_refl 0
  owning := Nat.le_refl 0
  published := Nat.zero_le 1
  deleted := nofun

/-- One that was queued, owned or held gives back its reference. -/
theorem releaseRef {nextQueued nextHeld nextOwned : Nat}
    (settled : Settled terminating queued held itself other object)
    (given : nextQueued + nextOwned + nextHeld + 1 = queued + object.owned + held)
    (calling : itself ≤ nextHeld) (owning : other ≤ nextOwned)
    (published : itself + other ≤ nextQueued) :
    Settled terminating nextQueued nextHeld itself other
      { object.releaseRef with owned := nextOwned } where
  counted := by
    have counted := settled.counted
    simp only [CIOObject.releaseRef]
    omega
  tight := by
    intro open_
    have tight := settled.tight open_
    simp only [CIOObject.releaseRef]
    omega
  inside := settled.inside
  calling := calling
  owning := owning
  published := published
  deleted := by
    intro isDeleted
    simp only [CIOObject.releaseRef, Bool.or_eq_true, decide_eq_true_eq] at isDeleted
    rcases isDeleted with before | zero
    · have nobody := settled.deleted before
      simp only
      omega
    · -- a callback inside `RegisterTimer` has a reference besides what it has queued
      have counted := settled.counted
      simp only
      omega

theorem share (settled : Settled terminating queued held itself other object)
    (owned : 0 < object.owned) : Settled terminating queued held itself other object.share where
  counted := by
    have counted := settled.counted
    simp only [CIOObject.share, CIOObject.addRef]
    omega
  tight := by
    intro open_
    have tight := settled.tight open_
    simp only [CIOObject.share, CIOObject.addRef]
    omega
  inside := settled.inside
  calling := settled.calling
  owning := Nat.le_succ_of_le settled.owning
  published := settled.published
  deleted := by
    intro isDeleted
    have nobody := settled.deleted isDeleted
    omega

theorem giveBack (settled : Settled terminating queued held itself other object)
    (idle : object.registering + other < object.owned) :
    Settled terminating queued held itself other object.giveBack :=
  settled.releaseRef (by omega) settled.calling (by omega) settled.published

theorem addRef {nextItself nextOther : Nat}
    (settled : Settled terminating queued held itself other object)
    (counts : nextItself + nextOther + 1 = itself + other) (lessItself : nextItself ≤ itself)
    (lessOther : nextOther ≤ other) :
    Settled terminating queued held nextItself nextOther object.addRef where
  counted := by
    have counted := settled.counted
    simp only [CIOObject.addRef]
    omega
  tight := by
    intro open_
    have tight := settled.tight open_
    simp only [CIOObject.addRef]
    omega
  inside := settled.inside
  calling := Nat.le_trans lessItself settled.calling
  owning := Nat.le_trans lessOther settled.owning
  published := Nat.le_trans (Nat.add_le_add lessItself lessOther) settled.published
  deleted := settled.deleted

theorem push {nextItself nextOther : Nat}
    (settled : Settled terminating queued held itself other object)
    (pushes : nextItself + nextOther = itself + other + 1)
    (calling : nextItself ≤ held) (owning : nextOther ≤ object.owned) :
    Settled terminating (queued + 1) held nextItself nextOther object where
  counted := by
    have counted := settled.counted
    omega
  tight := by
    intro open_
    have tight := settled.tight open_
    omega
  inside := settled.inside
  calling := calling
  owning := owning
  published := by
    have published := settled.published
    omega
  deleted := by
    intro isDeleted
    have nobody := settled.deleted isDeleted
    omega

theorem pop (settled : Settled terminating (queued + 1) 0 0 0 object) :
    Settled terminating queued 1 0 0 object where
  counted := by
    have counted := settled.counted
    omega
  tight := by
    intro open_
    have tight := settled.tight open_
    omega
  inside := settled.inside
  calling := Nat.zero_le 1
  owning := Nat.zero_le _
  published := Nat.zero_le queued
  deleted := by
    intro isDeleted
    have nobody := settled.deleted isDeleted
    omega

theorem terminate (settled : Settled terminating queued held itself other object) :
    Settled true queued held itself other object :=
  ⟨settled.counted, nofun, settled.inside, settled.calling, settled.owning, settled.published,
    settled.deleted⟩

/-- A reference that nobody gives back any more. -/
theorem forget (settled : Settled true queued held 0 0 object) :
    Settled true queued 0 0 0 object where
  counted := by
    have counted := settled.counted
    omega
  tight := nofun
  inside := settled.inside
  calling := Nat.le_refl 0
  owning := settled.owning
  published := settled.published
  deleted := by
    intro isDeleted
    have nobody := settled.deleted isDeleted
    omega

end Settled

/-! ### All objects, over a step -/

structure Accounted (timers : TimerObjects) : Prop where
  settled : ∀ object, Settled timers.job.terminating (entries timers.job.queue object)
    (timers.held object) (timers.addingItself object) (timers.addingOther object)
    (timers.object object)
  refused : timers.callback.registration = .returned false → timers.job.terminating = true

section Step

variable {timers : TimerObjects}

theorem calling_of_lockFree {phase : Phase} (free : CJob.Phase.LockFree phase) :
    phase.calling = none := by
  cases phase with
  | firing time offered fired current attempts moved => exact absurd free id
  | _ => rfl

theorem held_eq_zero (none_ : timers.job.phase.calling = none) (object : Nat) :
    timers.held object = 0 := by
  unfold held
  rw [none_, if_neg (fun both => by cases both.1)]

theorem addingItself_eq_zero (notItself : timers.callback.registration ≠ .itself)
    (object : Nat) : timers.addingItself object = 0 :=
  if_neg fun both => notItself both.2

theorem addingOther_eq_zero (notOther : ∀ other, timers.callback.registration ≠ .other other)
    (object : Nat) : timers.addingOther object = 0 :=
  if_neg fun both => notOther object both.2

theorem addingItself_of_itself (current : Nat)
    (calling : timers.job.phase.calling = some current)
    (itself : timers.callback.registration = .itself) (object : Nat) :
    timers.addingItself object = if current = object then 1 else 0 := by
  unfold addingItself
  rw [calling, itself]
  simp only [Option.some.injEq, and_true]

theorem addingOther_of_other (current other : Nat)
    (calling : timers.job.phase.calling = some current)
    (byOther : timers.callback.registration = .other other) (object : Nat) :
    timers.addingOther object = if other = object then 1 else 0 := by
  unfold addingOther
  rw [calling, byOther]
  simp only [Registration.other.injEq, ne_eq, reduceCtorEq, not_false_eq_true, true_and]

theorem held_congr (timers : TimerObjects) {next : TimerObjects}
    (calling : next.job.phase.calling = timers.job.phase.calling)
    (released : next.callback.released = timers.callback.released) (object : Nat) :
    next.held object = timers.held object := by
  unfold held
  rw [calling, released]

theorem Accounted.outside (accounted : timers.Accounted)
    (none_ : timers.job.phase.calling = none) (object : Nat) :
    Settled timers.job.terminating (entries timers.job.queue object) 0 0 0
      (timers.object object) := by
  have settled := accounted.settled object
  rw [held_eq_zero none_] at settled
  have itself : timers.addingItself object = 0 := Nat.le_zero.mp settled.calling
  have other : timers.addingOther object = 0 := if_neg fun both => both.1 none_
  rw [itself, other] at settled
  exact settled

theorem Accounted.of_outside (none_ : timers.job.phase.calling = none)
    (settled : ∀ object, Settled timers.job.terminating (entries timers.job.queue object) 0 0 0
      (timers.object object))
    (refused : timers.callback.registration = .returned false → timers.job.terminating = true) :
    timers.Accounted where
  settled := by
    intro object
    have itself : timers.addingItself object = 0 := if_neg fun both => by
      rw [none_] at both
      cases both.1
    have other : timers.addingOther object = 0 := if_neg fun both => both.1 none_
    rw [held_eq_zero none_, itself, other]
    exact settled object
  refused := refused

theorem Accounted.kept (accounted : timers.Accounted) : timers.Kept where
  counted := by
    intro free object
    have counted := (accounted.outside (calling_of_lockFree free) object).counted
    omega
  alive := by
    intro object isDeleted
    have settled := accounted.settled object
    have nobody := settled.deleted isDeleted
    have byItself := settled.calling
    have byOther := settled.owning
    have inside := settled.inside
    omega

theorem create_accounted (now spare : Nat) : (create now spare).Accounted := by
  refine Accounted.of_outside rfl ?_ nofun
  intro object
  by_cases isTopTimer : object = ioTopTimer
  · subst isTopTimer
    exact Settled.create_top
  · have queued : entries (create now spare).job.queue object = 0 := by
      unfold create CJob.create
      rw [entries_cons, if_neg (fun same => isTopTimer same.symm)]
      rfl
    have unused : (create now spare).object object = CIOObject.create := by
      unfold create
      exact Function.update_of_ne isTopTimer (⟨1, 0, 0, false⟩ : CIOObject)
        fun _ => CIOObject.create
    rw [queued, unused]
    exact Settled.create

theorem Accounted.moves (accounted : timers.Accounted) (job : CJob)
    (queue : job.queue = timers.job.queue) (terminating : job.terminating = timers.job.terminating)
    (calling : job.phase.calling = timers.job.phase.calling) :
    Accounted { timers with job := job } := by
  constructor
  · intro object
    have settled := accounted.settled object
    unfold held addingItself addingOther at settled ⊢
    simp only [queue, terminating, calling]
    exact settled
  · intro answer
    rw [terminating]
    exact accounted.refused answer

theorem Accounted.changes (accounted : timers.Accounted) (callback : Callback) (object : Nat)
    (by_ : CIOObject → CIOObject)
    (refused : callback.registration = .returned false → timers.job.terminating = true)
    (changed : Settled timers.job.terminating (entries timers.job.queue object)
      (held { timers with callback := callback } object)
      (addingItself { timers with callback := callback } object)
      (addingOther { timers with callback := callback } object) (by_ (timers.object object)))
    (held_ : ∀ other, other ≠ object →
      held { timers with callback := callback } other = timers.held other)
    (itself : ∀ other, other ≠ object →
      addingItself { timers with callback := callback } other = timers.addingItself other)
    (owned : ∀ other, other ≠ object →
      addingOther { timers with callback := callback } other = timers.addingOther other) :
    Accounted { timers with object := timers.change object by_, callback := callback } where
  settled := by
    intro other
    by_cases same : other = object
    · subst same
      have after : timers.change other by_ other = by_ (timers.object other) :=
        Function.update_self _ _ _
      rw [← after] at changed
      exact changed
    · have settled := accounted.settled other
      have after : timers.change object by_ other = timers.object other :=
        Function.update_of_ne same _ _
      rw [← held_ other same, ← itself other same, ← owned other same, ← after] at settled
      exact settled
  refused := refused

/-- The callback of the timer that was popped has the timer's reference. -/
theorem pop_accounted (top : CIOTimer) (time : Nat) (offered fired : List CIOTimer) (moved : Bool)
    (member : top ∈ timers.job.queue)
    (settled : ∀ object, Settled timers.job.terminating (entries timers.job.queue object) 0 0 0
      (timers.object object)) :
    Accounted ⟨timers.job.pop top time offered fired moved, timers.object, Callback.start⟩ where
  settled := by
    intro object
    have before := settled object
    rw [entries_erase timers.job.queue top member] at before
    rw [addingItself_eq_zero, addingOther_eq_zero]
    · by_cases isTop : top.object = object
      · rw [if_pos isTop] at before
        rw [held, if_pos ⟨congrArg some isTop, rfl⟩]
        exact before.pop
      · rw [if_neg isTop] at before
        rw [held, if_neg (fun both => isTop (Option.some.inj both.1))]
        exact before
    · nofun
    · nofun
  refused := nofun

theorem drained_settled (terminating : Bool) (queue : List CIOTimer) (objects : Nat → CIOObject)
    (settled : ∀ object, Settled terminating (entries queue object) 0 0 0 (objects object)) :
    ∀ object, Settled terminating 0 0 0 0 (drained objects queue object) := by
  induction queue generalizing objects with
  | nil => exact settled
  | cons timer rest ih =>
      apply ih
      intro object
      have before := settled object
      rw [entries_cons] at before
      by_cases isTimers : object = timer.object
      · subst isTimers
        rw [if_pos rfl] at before
        rw [Function.update_self]
        exact before.releaseRef (by omega) (Nat.le_refl 0) (Nat.zero_le _) (Nat.zero_le _)
      · rw [if_neg (Ne.symm isTimers)] at before
        rw [Function.update_of_ne isTimers]
        exact before

theorem Accounted.notPending (accounted : timers.Accounted)
    (notPending : ¬ timers.callback.registration.Pending) (object : Nat) :
    Settled timers.job.terminating (entries timers.job.queue object) (timers.held object) 0 0
      (timers.object object) := by
  have settled := accounted.settled object
  rw [addingItself_eq_zero (fun same => notPending (by rw [same]; trivial)),
    addingOther_eq_zero (fun other same => notPending (by rw [same]; trivial))] at settled
  exact settled

/-- A callback that returns has given back the reference of its timer, unless the
queue has been closed to the top timer. -/
theorem Accounted.returns (accounted : timers.Accounted) (returns : timers.Returns)
    (object : Nat) :
    Settled timers.job.terminating (entries timers.job.queue object) 0 0 0
      (timers.object object) := by
  obtain ⟨notPending, released | refused⟩ := returns
  · have settled := accounted.notPending notPending object
    have given : timers.held object = 0 := if_neg fun both => by
      rw [released] at both
      cases both.2
    rw [given] at settled
    exact settled
  · have settled := accounted.notPending notPending object
    rw [accounted.refused refused.2] at settled ⊢
    exact settled.forget

theorem run_accounted (accounted : timers.Accounted) (event : CJob.Event) (job : CJob)
    (lets : timers.Lets event) (step : timers.job.step event = some job) :
    (timers.follow event job).Accounted := by
  cases CJob.step_takes timers.job job event step with
  | advance elapsed => exact accounted.moves _ rfl rfl rfl
  | pushTimer object milisec reading grown free other fits => exact absurd lets id
  | readClock looping => exact accounted.moves _ rfl rfl (by rw [looping]; rfl)
  | reached time clocked isDue => exact accounted.moves _ rfl rfl (by rw [clocked]; rfl)
  | ahead time clocked later => exact accounted.moves _ rfl rfl (by rw [clocked]; rfl)
  | enter time top due chosen =>
      exact pop_accounted top time _ [] false chosen.1
        (accounted.outside (by rw [due]; rfl))
  | enterEmpty time top due empty =>
      exact Accounted.of_outside rfl (accounted.outside (by rw [due]; rfl)) nofun
  | callbackPush time current attempts object milisec grown offered fired moved phase allowed fits =>
      exact absurd lets id
  | callbackReturn time current attempts offered fired moved top next phase pushed decided =>
      have returned := accounted.returns lets
      cases decided with
      | empty empty => exact Accounted.of_outside rfl returned nofun
      | moved filled isMoved => exact Accounted.of_outside rfl returned nofun
      | stops chosen later => exact Accounted.of_outside rfl returned nofun
      | pops chosen isDue => exact pop_accounted top time offered fired false chosen.1 returned
  | setTerminate =>
      exact ⟨fun object => (accounted.settled object).terminate, fun _ => rfl⟩
  | wake waiting running =>
      have same : timers.follow .wake { timers.job with phase := .looping } =
          { timers with job := { timers.job with phase := .looping } } := by
        unfold follow
        simp only [running]
        rfl
      rw [same]
      exact accounted.moves _ rfl rfl (by rw [waiting]; rfl)
  | finish waiting terminated =>
      refine Accounted.of_outside rfl ?_ accounted.refused
      have drained_ := drained_settled timers.job.terminating timers.job.queue timers.object
        (accounted.outside (by rw [waiting]; rfl))
      intro object
      have same : (timers.follow .wake { timers.job with queue := [], phase := .finished }).object =
          drained timers.object timers.job.queue := if_pos terminated
      rw [same]
      exact drained_ object

theorem pushTimer_accounted (accounted : timers.Accounted)
    (object milisec reading grown : Nat) (job : CJob)
    (terminated : timers.job.terminating = true)
    (step : timers.job.step (.pushTimer object milisec reading grown) = some job) :
    (timers.pushTimer object job).Accounted := by
  have unchanged : timers.pushTimer object job = { timers with job := job } := by
    unfold pushTimer
    rw [if_pos terminated]
  have refused : timers.job.pushTimer ⟨reading + milisec, object⟩ grown = timers.job :=
    if_pos terminated
  rw [unchanged]
  cases CJob.step_takes timers.job job _ step with
  | pushTimer _ _ _ _ free other fits =>
      rw [refused]
      exact accounted

/-- `RegisterTimer` of a callback, with the queue closed, on the object that is called
back, and on another one. -/
theorem callbackPush_refused (accounted : timers.Accounted) (job : CJob)
    (notPending : ¬ timers.callback.registration.Pending)
    (calling : job.phase.calling = timers.job.phase.calling) (terminated : job.terminating = true)
    (terminating : job.terminating = timers.job.terminating)
    (queue : job.queue = timers.job.queue) :
    Accounted { timers with
      job := job
      callback := { timers.callback with registration := .returned false } } where
  settled := by
    intro object
    have settled := accounted.notPending notPending object
    rw [held_congr timers, addingItself_eq_zero, addingOther_eq_zero]
    · simp only [terminating, queue]
      exact settled
    · nofun
    · nofun
    · exact calling
    · rfl
  refused := fun _ => terminated

theorem callbackPush_itself (accounted : timers.Accounted) (job : CJob) (object : Nat)
    (notPending : ¬ timers.callback.registration.Pending)
    (itself : timers.job.phase.calling = some object ∧ timers.callback.released = false)
    (calling : job.phase.calling = timers.job.phase.calling)
    (terminating : job.terminating = timers.job.terminating)
    (queue : ∀ other, entries job.queue other =
      entries timers.job.queue other + if object = other then 1 else 0) :
    Accounted { timers with
      job := job
      callback := { timers.callback with registration := .itself } } where
  settled := by
    intro other
    have settled := accounted.notPending notPending other
    rw [held_congr timers, addingItself_of_itself object, addingOther_eq_zero]
    · simp only [terminating, queue]
      by_cases same : object = other
      · subst same
        have given : timers.held object = 1 := if_pos itself
        rw [if_pos rfl]
        exact settled.push rfl (Nat.le_of_eq given.symm) (Nat.zero_le _)
      · rw [if_neg same]
        exact settled
    · nofun
    · exact calling.trans itself.1
    · rfl
    · exact calling
    · rfl
  refused := nofun

theorem callbackPush_other (accounted : timers.Accounted) (job : CJob) (object current : Nat)
    (notPending : ¬ timers.callback.registration.Pending) (idle : timers.Idle object)
    (inCallback : timers.job.phase.calling = some current)
    (calling : job.phase.calling = timers.job.phase.calling)
    (terminating : job.terminating = timers.job.terminating)
    (queue : ∀ other, entries job.queue other =
      entries timers.job.queue other + if object = other then 1 else 0) :
    Accounted { timers with
      job := job
      callback := { timers.callback with registration := .other object } } where
  settled := by
    intro other
    have settled := accounted.notPending notPending other
    rw [held_congr timers, addingItself_eq_zero, addingOther_of_other current object]
    · simp only [terminating, queue]
      by_cases same : object = other
      · subst same
        rw [if_pos rfl]
        exact settled.push rfl (Nat.zero_le _) (Nat.lt_of_le_of_lt (Nat.zero_le _) idle)
      · rw [if_neg same]
        exact settled
    · exact calling.trans inCallback
    · rfl
    · nofun
    · exact calling
    · rfl
  refused := nofun

theorem callbackPush_calling (job : CJob) (time current attempts grown : Nat)
    (offered fired : List CIOTimer) (moved : Bool) (timer : CIOTimer) :
    (job.callbackPush time offered fired current attempts moved timer grown).phase.calling =
      some current := by
  unfold CJob.callbackPush
  simp only
  split
  · rfl
  · rfl

theorem callbackPush_accounted (accounted : timers.Accounted)
    (object milisec grown : Nat) (job : CJob) (next : TimerObjects)
    (notPending : ¬ timers.callback.registration.Pending)
    (step : timers.job.step (.callbackPush object milisec grown) = some job)
    (pushed : timers.callbackPush object job = some next) : next.Accounted := by
  cases CJob.step_takes timers.job job _ step with
  | callbackPush time current attempts _ _ _ offered fired moved phase allowed fits =>
      have inCallback : timers.job.phase.calling = some current := by
        rw [phase]
        rfl
      have calling := (callbackPush_calling timers.job time current attempts grown offered fired
        moved ⟨timers.job.now + milisec, object⟩).trans inCallback.symm
      unfold callbackPush at pushed
      split at pushed
      · rename_i terminated
        obtain rfl := Option.some.inj pushed
        have refused : timers.job.pushTimer ⟨timers.job.now + milisec, object⟩ grown =
          timers.job := if_pos terminated
        have terminating := congrArg CJob.terminating refused
        have queue := congrArg CJob.queue refused
        exact callbackPush_refused accounted _ notPending calling (terminating.trans terminated)
          terminating queue
      rename_i open_
      have accepted := CJob.pushTimer_open timers.job ⟨timers.job.now + milisec, object⟩ grown
        (Bool.not_eq_true _ |>.mp open_)
      have terminating := congrArg CJob.terminating accepted
      have queue (other : Nat) := (congrArg (fun job => entries job.queue other) accepted).trans
        (entries_cons _ _ other)
      split at pushed
      · rename_i itself
        obtain rfl := Option.some.inj pushed
        exact callbackPush_itself accounted _ object notPending itself calling terminating queue
      split at pushed
      · rename_i idle
        obtain rfl := Option.some.inj pushed
        exact callbackPush_other accounted _ object current notPending idle inCallback calling
          terminating queue
      · cases pushed

theorem callbackAddRef_accounted (accounted : timers.Accounted) (current : Nat)
    (next : TimerObjects) (calling : timers.job.phase.calling = some current)
    (added : timers.callbackAddRef current = some next) : next.Accounted := by
  unfold callbackAddRef at added
  split at added
  · rename_i itself
    obtain rfl := Option.some.inj added
    have before := addingItself_of_itself current calling itself
    have noOther := addingOther_eq_zero (fun other => by rw [itself]; nofun)
    refine accounted.changes _ current CIOObject.addRef nofun ?_ ?_ ?_ ?_
    · have settled := accounted.settled current
      rw [before, if_pos rfl, noOther] at settled
      rw [addingItself_eq_zero, addingOther_eq_zero]
      · exact settled.addRef rfl (Nat.zero_le 1) (Nat.le_refl 0)
      · nofun
      · nofun
    · exact fun _ _ => rfl
    · intro other different
      rw [before, if_neg (Ne.symm different)]
      refine addingItself_eq_zero ?_ other
      nofun
    · intro other different
      rw [noOther]
      refine addingOther_eq_zero ?_ other
      nofun
  · rename_i object byOther
    obtain rfl := Option.some.inj added
    have before := addingOther_of_other current object calling byOther
    have notItself := addingItself_eq_zero (fun itself => by rw [byOther] at itself; cases itself)
    refine accounted.changes _ object CIOObject.addRef nofun ?_ ?_ ?_ ?_
    · have settled := accounted.settled object
      rw [before, if_pos rfl, notItself] at settled
      rw [addingItself_eq_zero, addingOther_eq_zero]
      · exact settled.addRef rfl (Nat.le_refl 0) (Nat.zero_le 1)
      · nofun
      · nofun
    · exact fun _ _ => rfl
    · intro other different
      rw [notItself]
      refine addingItself_eq_zero ?_ other
      nofun
    · intro other different
      rw [before, if_neg (Ne.symm different)]
      refine addingOther_eq_zero ?_ other
      nofun
  · cases added

theorem callbackRelease_accounted (accounted : timers.Accounted) (current : Nat)
    (calling : timers.job.phase.calling = some current) (releases : timers.Releases current) :
    Accounted { timers with
      object := timers.change current CIOObject.releaseRef
      callback := { timers.callback with released := true } } := by
  obtain ⟨notPending, unreleased, _⟩ := releases
  have given (object : Nat) :
      held { timers with callback := { timers.callback with released := true } } object = 0 :=
    if_neg fun both => by cases both.2
  refine accounted.changes _ current CIOObject.releaseRef accounted.refused ?_ ?_ ?_ ?_
  · have settled := accounted.settled current
    have before : timers.held current = 1 := if_pos ⟨calling, unreleased⟩
    have itself := addingItself_eq_zero (fun same => notPending (by rw [same]; trivial)) current
    rw [before] at settled
    rw [given]
    exact settled.releaseRef rfl (Nat.le_of_eq itself) settled.owning settled.published
  · intro other different
    rw [given]
    exact (if_neg fun both => different (Option.some.inj (calling.symm.trans both.1)).symm).symm
  · exact fun _ _ => rfl
  · exact fun _ _ => rfl

theorem share_accounted (accounted : timers.Accounted) (object : Nat)
    (owned : 0 < (timers.object object).owned) :
    Accounted { timers with object := timers.change object CIOObject.share } :=
  accounted.changes timers.callback object CIOObject.share accounted.refused
    ((accounted.settled object).share owned) (fun _ _ => rfl) (fun _ _ => rfl) (fun _ _ => rfl)

theorem giveBack_accounted (accounted : timers.Accounted) (object : Nat)
    (idle : timers.Idle object) :
    Accounted { timers with object := timers.change object CIOObject.giveBack } :=
  accounted.changes timers.callback object CIOObject.giveBack accounted.refused
    ((accounted.settled object).giveBack idle) (fun _ _ => rfl) (fun _ _ => rfl) (fun _ _ => rfl)

theorem step_accounted (event : Event) (next : TimerObjects) (accounted : timers.Accounted)
    (guard : timers.FromCallbacks event) (step : timers.step event = some next) :
    next.Accounted := by
  cases event with
  | run event =>
      simp only [TimerObjects.step] at step
      split at step
      · rename_i lets
        obtain ⟨job, ran, rfl⟩ := Option.map_eq_some_iff.mp step
        exact run_accounted accounted event job lets ran
      · cases step
  | pushTimer object milisec reading grown =>
      simp only [TimerObjects.step] at step
      split at step
      · obtain ⟨job, ran, rfl⟩ := Option.map_eq_some_iff.mp step
        exact pushTimer_accounted accounted object milisec reading grown job guard ran
      · cases step
  | addRef object =>
      simp only [TimerObjects.step] at step
      split at step
      · rename_i registering
        -- no other thread has pushed
        have inside := (accounted.settled object).inside
        omega
      · cases step
  | share object =>
      simp only [TimerObjects.step] at step
      split at step
      · rename_i owned
        obtain rfl := Option.some.inj step
        exact share_accounted accounted object owned
      · cases step
  | giveBack object =>
      simp only [TimerObjects.step] at step
      split at step
      · rename_i idle
        obtain rfl := Option.some.inj step
        exact giveBack_accounted accounted object idle
      · cases step
  | callbackPush object milisec grown =>
      simp only [TimerObjects.step] at step
      split at step
      · cases step
      · rename_i notPending
        obtain ⟨job, ran, pushed⟩ := Option.bind_eq_some_iff.mp step
        exact callbackPush_accounted accounted object milisec grown job next notPending ran pushed
  | callbackAddRef =>
      obtain ⟨current, calling, added⟩ := Option.bind_eq_some_iff.mp step
      exact callbackAddRef_accounted accounted current next calling added
  | callbackRelease =>
      obtain ⟨current, calling, released⟩ := Option.bind_eq_some_iff.mp step
      simp only at released
      split at released
      · rename_i releases
        obtain rfl := Option.some.inj released
        exact callbackRelease_accounted accounted current calling releases
      · cases released

/-- A push of another thread that goes through is one more timer than counted. -/
theorem step_fromCallbacks (event : Event) (next : TimerObjects) (accounted : timers.Accounted)
    (step : timers.step event = some next) (kept : next.Kept) : timers.FromCallbacks event := by
  cases event with
  | pushTimer object milisec reading grown =>
      change timers.job.terminating = true
      by_contra open_
      rw [Bool.not_eq_true] at open_
      simp only [TimerObjects.step] at step
      split at step
      · obtain ⟨job, ran, rfl⟩ := Option.map_eq_some_iff.mp step
        cases CJob.step_takes timers.job job _ ran with
        | pushTimer _ _ _ _ free other fits =>
            have accepted := CJob.pushTimer_open timers.job ⟨reading + milisec, object⟩ grown open_
            have tight := (accounted.outside (calling_of_lockFree free) object).tight open_
            have counted := kept.counted (by
              unfold pushTimer
              simp only [accepted]
              exact free) object
            unfold pushTimer change at counted
            simp only [accepted, open_, Bool.false_eq_true, if_false, Function.update_self,
              entries_cons, if_true, CIOObject.pushed] at counted
            omega
      · cases step
  | _ => trivial

end Step

/-! ### Whole runs -/

/-- The counts cover the queue and the owners, and nothing is deleted that is in use,
exactly as long as only callbacks register timers. -/
theorem kept_iff_fromCallbacks (now spare : Nat) (events : List Event) :
    machine.Throughout Kept (create now spare) events ↔
      machine.Guarded FromCallbacks (create now spare) events :=
  machine.throughout_iff_guarded Accounted Kept FromCallbacks
    (fun _ event next accounted guard step => step_accounted event next accounted guard step)
    (fun _ accounted => accounted.kept)
    (fun _ event next accounted step kept => step_fromCallbacks event next accounted step kept)
    events (create now spare) (create_accounted now spare)

def firedTooEarly : List Event :=
  [.pushTimer 1 0 0 2, .run .readClock, .run .readTopTick, .run (.enter ⟨0, 1⟩), .callbackRelease]

theorem registering_object_deleted :
    ¬ ∀ (now spare : Nat) (events : List Event),
      machine.Throughout Kept (create now spare) events := by
  intro claimed
  have kept := claimed 0 0 firedTooEarly
  rw [machine.throughout_iff_trace] at kept
  have last := List.getElem_mem
    (show 5 < (machine.trace (create 0 0) firedTooEarly).length by decide)
  have nobody := (kept _ last).alive 1 (by decide)
  exact absurd nobody (by decide)

end TimerObjects

end AuthServer
