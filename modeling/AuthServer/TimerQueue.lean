/-
The timer queue of `CJob`: pushing timers, and the thread that fires them.

Each timer carries the time its tick stands for; the code sees ticks only.
`PushTimer` is one locked step, `RunTimer` is cut where other threads can come
in and where it calls back.  `RunTimer` keeps a reference to the top of the
queue while callbacks push, and such a push can move the vector the queue is
kept in; assigning through the reference is undefined from then on.
-/

import AuthServer.Lib.EventRuns
import AuthServer.Lib.PriorityQueue
import AuthServer.Lib.TickClock

set_option autoImplicit false

namespace AuthServer

open EventRuns PriorityQueue TickClock

structure CIOTimer where
  due : Nat
  object : Nat
  deriving DecidableEq, Repr

namespace CIOTimer

def mTick (timer : CIOTimer) : UInt32 := tick timer.due

/-- `operator<`, by which the queue compares. -/
def Less (left right : CIOTimer) : Prop := 0 < distance left.mTick right.mTick

instance (left right : CIOTimer) : Decidable (left.Less right) := inferInstanceAs (Decidable (_ < _))

/-- Ticks that are near enough are ordered as the times are. -/
theorem less_iff (left right : CIOTimer) (near : Near left.due right.due) :
    left.Less right ↔ right.due < left.due := by
  unfold Less mTick
  rw [distance_tick left.due right.due near]
  omega

end CIOTimer

def topTickExpire : Nat := 24 * 3600 * 1000

def ioTopTimer : Nat := 0

/-- One pass of `RunTimer` over the queue: the clock it goes by, the timers that
were pending or pushed meanwhile, those it fired, and those it left. -/
structure Pass where
  time : Nat
  offered : List CIOTimer
  fired : List CIOTimer
  left : List CIOTimer

inductive Fault where
  | emptyQueue
  | dangling
  deriving DecidableEq, Repr

/-- Where `RunTimer` is. -/
inductive Phase where
  | looping
  | clocked (time : Nat)
  | due (time : Nat)
  /-- In a callback, with the lock held; `attempts` counts its pushes, and
  `moved` says that the vector is no longer where `top` refers to. -/
  | firing (time : Nat) (offered fired : List CIOTimer) (object attempts : Nat) (moved : Bool)
  | waiting
  | finished
  | fault (fault : Fault)

structure CJob where
  now : Nat
  queue : List CIOTimer
  capacity : Nat
  topTick : UInt32
  terminating : Bool
  phase : Phase
  passes : List Pass

namespace CJob

def create (now spare : Nat) : CJob where
  now := now
  queue := [⟨now + topTickExpire, ioTopTimer⟩]
  capacity := spare + 1
  topTick := tick (now + topTickExpire)
  terminating := false
  phase := .looping
  passes := []

def Phase.LockFree : Phase → Prop
  | .firing .. => False
  | .fault _ => False
  | _ => True

instance (phase : Phase) : Decidable (Phase.LockFree phase) := by
  cases phase
  all_goals first
    | exact isTrue trivial
    | exact isFalse id

/-- What may be on top: where the comparison orders the entries, one that none
is greater than, and otherwise any. -/
def MayBeTop (queue : List CIOTimer) (top : CIOTimer) : Prop :=
  top ∈ queue ∧ ((∀ left ∈ queue, ∀ right ∈ queue, Near left.due right.due) →
    IsTop CIOTimer.Less queue top)

instance (queue : List CIOTimer) (top : CIOTimer) : Decidable (MayBeTop queue top) :=
  inferInstanceAs (Decidable (_ ∧ _))

/-- Room for one more timer, or a larger vector to move to. -/
def Fits (job : CJob) (grown : Nat) : Prop :=
  job.queue.length < job.capacity ∨ job.queue.length < grown

instance (job : CJob) (grown : Nat) : Decidable (job.Fits grown) :=
  inferInstanceAs (Decidable (_ ∨ _))

def pushTimer (job : CJob) (timer : CIOTimer) (grown : Nat) : CJob :=
  if job.terminating then job
  else
    { job with
      queue := timer :: job.queue
      capacity := if job.queue.length < job.capacity then job.capacity else grown
      topTick := if 0 < distance job.topTick timer.mTick then timer.mTick else job.topTick }

def pop (job : CJob) (top : CIOTimer) (time : Nat) (offered fired : List CIOTimer)
    (moved : Bool) : CJob :=
  { job with
    queue := job.queue.erase top
    phase := .firing time offered (fired ++ [top]) top.object 0 moved }

inductive Event where
  | advance (elapsed : Nat)
  | pushTimer (object milisec reading grown : Nat)
  | readClock
  | readTopTick
  | enter (top : CIOTimer)
  | callbackPush (object milisec grown : Nat)
  | callbackReturn (top : CIOTimer)
  | setTerminate
  | wake

/-- What a callback may push: the top timer pushes itself, once, and no other
object pushes the top timer. -/
def MayPush (current attempts object milisec : Nat) : Prop :=
  if current = ioTopTimer then
    attempts = 0 ∧ object = ioTopTimer ∧ milisec = topTickExpire
  else object ≠ ioTopTimer

instance (current attempts object milisec : Nat) :
    Decidable (MayPush current attempts object milisec) := by
  unfold MayPush
  infer_instance

def callbackPush (job : CJob) (time : Nat) (offered fired : List CIOTimer)
    (current attempts : Nat) (moved : Bool) (timer : CIOTimer) (grown : Nat) : CJob :=
  { job.pushTimer timer grown with
    phase :=
      if job.terminating then .firing time offered fired current (attempts + 1) moved
      else .firing time (timer :: offered) fired current (attempts + 1)
        (moved || decide (¬ job.queue.length < job.capacity)) }

/-- `top = m_timerQueue.top()`, and what it decides. -/
def callbackReturn (job : CJob) (time : Nat) (offered fired : List CIOTimer) (moved : Bool)
    (top : CIOTimer) : Option CJob :=
  if job.queue = [] then some { job with phase := .fault .emptyQueue }
  else if moved then some { job with phase := .fault .dangling }
  else if ¬ MayBeTop job.queue top then none
  else if 0 < distance top.mTick (tick time) then
    some { job with
      topTick := top.mTick
      phase := .waiting
      passes := job.passes ++ [⟨time, offered, fired, job.queue⟩] }
  else some (job.pop top time offered fired moved)

def step (job : CJob) : Event → Option CJob
  | .advance elapsed => some { job with now := job.now + elapsed }
  | .pushTimer object milisec reading grown =>
      if Phase.LockFree job.phase ∧ object ≠ ioTopTimer ∧ reading ≤ job.now ∧ job.Fits grown then
        some (job.pushTimer ⟨reading + milisec, object⟩ grown)
      else none
  | .readClock =>
      match job.phase with
      | .looping => some { job with phase := .clocked job.now }
      | _ => none
  | .readTopTick =>
      match job.phase with
      | .clocked time =>
          if distance job.topTick (tick time) ≤ 0 then some { job with phase := .due time }
          else
            some { job with
              phase := .waiting
              passes := job.passes ++ [⟨time, job.queue, [], job.queue⟩] }
      | _ => none
  | .enter top =>
      match job.phase with
      | .due time =>
          if job.queue = [] then some { job with phase := .fault .emptyQueue }
          else if MayBeTop job.queue top then some (job.pop top time job.queue [] false)
          else none
      | _ => none
  | .callbackPush object milisec grown =>
      match job.phase with
      | .firing time offered fired current attempts moved =>
          if MayPush current attempts object milisec ∧ job.Fits grown then
            some (job.callbackPush time offered fired current attempts moved
              ⟨job.now + milisec, object⟩ grown)
          else none
      | _ => none
  | .callbackReturn top =>
      match job.phase with
      | .firing time offered fired current attempts moved =>
          if current = ioTopTimer ∧ attempts = 0 then none
          else job.callbackReturn time offered fired moved top
      | _ => none
  | .setTerminate => some { job with terminating := true }
  | .wake =>
      match job.phase with
      | .waiting =>
          if job.terminating then some { job with queue := [], phase := .finished }
          else some { job with phase := .looping }
      | _ => none

def machine : Machine CJob Event := ⟨step⟩

/-! ### What a step can do -/

/-- What comes of looking at the top again behind a callback. -/
inductive Decides (job : CJob) (time : Nat) (offered fired : List CIOTimer) :
    Bool → CIOTimer → CJob → Prop where
  | empty {moved : Bool} {top : CIOTimer} (empty : job.queue = []) :
      Decides job time offered fired moved top { job with phase := .fault .emptyQueue }
  | moved {moved : Bool} {top : CIOTimer} (filled : job.queue ≠ []) (isMoved : moved = true) :
      Decides job time offered fired moved top { job with phase := .fault .dangling }
  | stops {moved : Bool} {top : CIOTimer} (chosen : MayBeTop job.queue top)
      (later : 0 < distance top.mTick (tick time)) :
      Decides job time offered fired moved top
        { job with
          topTick := top.mTick
          phase := .waiting
          passes := job.passes ++ [⟨time, offered, fired, job.queue⟩] }
  | pops {top : CIOTimer} (chosen : MayBeTop job.queue top)
      (isDue : ¬ 0 < distance top.mTick (tick time)) :
      Decides job time offered fired false top (job.pop top time offered fired false)

/-- Everything a step can be. -/
inductive Takes (job : CJob) : Event → CJob → Prop where
  | advance (elapsed : Nat) : Takes job (.advance elapsed) { job with now := job.now + elapsed }
  | pushTimer (object milisec reading grown : Nat) (free : Phase.LockFree job.phase)
      (other : object ≠ ioTopTimer) (fits : job.Fits grown) :
      Takes job (.pushTimer object milisec reading grown)
        (job.pushTimer ⟨reading + milisec, object⟩ grown)
  | readClock (looping : job.phase = .looping) :
      Takes job .readClock { job with phase := .clocked job.now }
  | reached (time : Nat) (clocked : job.phase = .clocked time)
      (isDue : distance job.topTick (tick time) ≤ 0) :
      Takes job .readTopTick { job with phase := .due time }
  | ahead (time : Nat) (clocked : job.phase = .clocked time)
      (later : ¬ distance job.topTick (tick time) ≤ 0) :
      Takes job .readTopTick
        { job with
          phase := .waiting
          passes := job.passes ++ [⟨time, job.queue, [], job.queue⟩] }
  | enter (time : Nat) (top : CIOTimer) (due : job.phase = .due time)
      (chosen : MayBeTop job.queue top) :
      Takes job (.enter top) (job.pop top time job.queue [] false)
  | enterEmpty (time : Nat) (top : CIOTimer) (due : job.phase = .due time)
      (empty : job.queue = []) :
      Takes job (.enter top) { job with phase := .fault .emptyQueue }
  | callbackPush (time current attempts object milisec grown : Nat)
      (offered fired : List CIOTimer) (moved : Bool)
      (phase : job.phase = .firing time offered fired current attempts moved)
      (allowed : MayPush current attempts object milisec) (fits : job.Fits grown) :
      Takes job (.callbackPush object milisec grown)
        (job.callbackPush time offered fired current attempts moved
          ⟨job.now + milisec, object⟩ grown)
  | callbackReturn (time current attempts : Nat) (offered fired : List CIOTimer)
      (moved : Bool) (top : CIOTimer) (next : CJob)
      (phase : job.phase = .firing time offered fired current attempts moved)
      (pushed : ¬ (current = ioTopTimer ∧ attempts = 0))
      (decided : Decides job time offered fired moved top next) :
      Takes job (.callbackReturn top) next
  | setTerminate : Takes job .setTerminate { job with terminating := true }
  | wake (waiting : job.phase = .waiting) (running : job.terminating = false) :
      Takes job .wake { job with phase := .looping }
  | finish (waiting : job.phase = .waiting) (terminated : job.terminating = true) :
      Takes job .wake { job with queue := [], phase := .finished }

theorem callbackReturn_decides (job next : CJob) (time : Nat) (offered fired : List CIOTimer)
    (moved : Bool) (top : CIOTimer)
    (step : job.callbackReturn time offered fired moved top = some next) :
    Decides job time offered fired moved top next := by
  unfold callbackReturn at step
  split at step
  · rename_i empty
    obtain rfl := Option.some.inj step
    exact .empty empty
  rename_i filled
  split at step
  · rename_i isMoved
    obtain rfl := Option.some.inj step
    exact .moved filled isMoved
  split at step
  · cases step
  rename_i still notChosen
  split at step
  · rename_i later
    obtain rfl := Option.some.inj step
    exact .stops (not_not.mp notChosen) later
  · rename_i isDue
    obtain rfl := Option.some.inj step
    rw [Bool.not_eq_true _ |>.mp still]
    exact .pops (not_not.mp notChosen) isDue

theorem step_takes (job next : CJob) (event : Event) (step : job.step event = some next) :
    Takes job event next := by
  cases event with
  | advance elapsed =>
      obtain rfl := Option.some.inj step
      exact .advance elapsed
  | pushTimer object milisec reading grown =>
      simp only [CJob.step] at step
      split at step
      · rename_i allowed
        obtain rfl := Option.some.inj step
        exact .pushTimer object milisec reading grown allowed.1 allowed.2.1 allowed.2.2.2
      · cases step
  | readClock =>
      simp only [CJob.step] at step
      split at step
      · rename_i looping
        obtain rfl := Option.some.inj step
        exact .readClock looping
      · cases step
  | readTopTick =>
      simp only [CJob.step] at step
      split at step
      · rename_i time clocked
        split at step
        · rename_i isDue
          obtain rfl := Option.some.inj step
          exact .reached time clocked isDue
        · rename_i later
          obtain rfl := Option.some.inj step
          exact .ahead time clocked later
      · cases step
  | enter top =>
      simp only [CJob.step] at step
      split at step
      · rename_i time due
        split at step
        · rename_i empty
          obtain rfl := Option.some.inj step
          exact .enterEmpty time top due empty
        split at step
        · rename_i chosen
          obtain rfl := Option.some.inj step
          exact .enter time top due chosen
        · cases step
      · cases step
  | callbackPush object milisec grown =>
      simp only [CJob.step] at step
      split at step
      · rename_i time offered fired current attempts moved phase
        split at step
        · rename_i allowed
          obtain rfl := Option.some.inj step
          exact .callbackPush time current attempts object milisec grown offered fired moved
            phase allowed.1 allowed.2
        · cases step
      · cases step
  | callbackReturn top =>
      simp only [CJob.step] at step
      split at step
      · rename_i time offered fired current attempts moved phase
        split at step
        · cases step
        · rename_i pushed
          exact .callbackReturn time current attempts offered fired moved top next phase pushed
            (callbackReturn_decides job next time offered fired moved top step)
      · cases step
  | setTerminate =>
      obtain rfl := Option.some.inj step
      exact .setTerminate
  | wake =>
      simp only [CJob.step] at step
      split at step
      · rename_i waiting
        split at step
        · rename_i terminated
          obtain rfl := Option.some.inj step
          exact .finish waiting terminated
        · rename_i running
          obtain rfl := Option.some.inj step
          exact .wake waiting (Bool.not_eq_true _ |>.mp running)
      · cases step

/-! ### What a run should keep -/

def Cached (job : CJob) : Prop :=
  ∃ top ∈ job.queue, job.topTick = top.mTick ∧ ∀ other ∈ job.queue, top.due ≤ other.due

/-- A pass fires what is due, each timer once and in order, and leaves the rest. -/
structure PassRight (pass : Pass) : Prop where
  kept : (pass.fired ++ pass.left).Perm pass.offered
  ordered : pass.fired.Pairwise fun first second => first.due ≤ second.due
  fired : ∀ timer ∈ pass.fired, timer.due ≤ pass.time
  left : ∀ timer ∈ pass.left, pass.time < timer.due

structure Timely (job : CJob) : Prop where
  running : ∀ fault, job.phase ≠ .fault fault
  cached : Phase.LockFree job.phase → job.queue ≠ [] → job.Cached
  passes : ∀ pass ∈ job.passes, PassRight pass

def Phase.clock : Phase → Option Nat
  | .clocked time => some time
  | .due time => some time
  | .firing time .. => some time
  | _ => none

/-- The queue has not been terminated, and everything that is pending is close
together and close to the clocks. -/
structure InWindow (job : CJob) : Prop where
  open_ : job.terminating = false
  mutual_ : ∀ left ∈ job.queue, ∀ right ∈ job.queue, Near left.due right.due
  present : ∀ timer ∈ job.queue, Near timer.due job.now
  clock : ∀ time, Phase.clock job.phase = some time → ∀ timer ∈ job.queue, Near timer.due time

instance (job : CJob) : Decidable job.InWindow :=
  decidable_of_iff
    (job.terminating = false ∧ (∀ left ∈ job.queue, ∀ right ∈ job.queue, Near left.due right.due) ∧
      (∀ timer ∈ job.queue, Near timer.due job.now) ∧
      ∀ time ∈ Phase.clock job.phase, ∀ timer ∈ job.queue, Near timer.due time)
    ⟨fun ⟨open_, mutual_, present, clock⟩ => ⟨open_, mutual_, present, clock⟩,
      fun window => ⟨window.open_, window.mutual_, window.present, window.clock⟩⟩

/-- No push from inside a callback finds the vector full. -/
def CallbackFits (job : CJob) : Event → Prop
  | .callbackPush .. => job.queue.length < job.capacity
  | _ => True

instance (job : CJob) (event : Event) : Decidable (job.CallbackFits event) := by
  cases event
  all_goals
    unfold CallbackFits
    infer_instance

/-! ### The invariant -/

def Armed (job : CJob) : Prop := ∃ timer ∈ job.queue, timer.object = ioTopTimer

structure FiringKept (job : CJob) (time : Nat) (offered fired : List CIOTimer)
    (current attempts : Nat) (moved : Bool) : Prop where
  still : moved = false
  drain : Drain CIOTimer.due offered fired job.queue
  due : ∀ timer ∈ fired, timer.due ≤ time
  armed : job.Armed ∨ (current = ioTopTimer ∧ attempts = 0)

structure Kept (job : CJob) : Prop where
  clock : ∀ time, Phase.clock job.phase = some time → time ≤ job.now
  cached : Phase.LockFree job.phase → job.Armed ∧ job.Cached
  due : ∀ time, job.phase = .due time → ∃ timer ∈ job.queue, timer.due ≤ time
  firing : ∀ time offered fired current attempts moved,
    job.phase = .firing time offered fired current attempts moved →
      job.FiringKept time offered fired current attempts moved
  running : ∀ fault, job.phase ≠ .fault fault
  passes : ∀ pass ∈ job.passes, PassRight pass

theorem Kept.timely {job : CJob} (kept : job.Kept) : job.Timely :=
  ⟨kept.running, fun free _ => (kept.cached free).2, kept.passes⟩

theorem create_kept (now spare : Nat) : (create now spare).Kept where
  clock := fun _ none => by cases none
  cached := fun _ => ⟨⟨_, List.mem_singleton_self _, rfl⟩, _, List.mem_singleton_self _, rfl,
    fun other member => Nat.le_of_eq (congrArg CIOTimer.due (List.mem_singleton.mp member).symm)⟩
  due := fun _ other => by cases other
  firing := fun _ _ _ _ _ _ other => by cases other
  running := fun _ other => by cases other
  passes := List.forall_mem_nil _

/-- With the lock free, the phases differ in their clocks and in what they know
to be due. -/
theorem Kept.of_lockFree {job : CJob} (free : Phase.LockFree job.phase)
    (clock : ∀ time, Phase.clock job.phase = some time → time ≤ job.now)
    (armed : job.Armed) (cached : job.Cached)
    (due : ∀ time, job.phase = .due time → ∃ timer ∈ job.queue, timer.due ≤ time)
    (passes : ∀ pass ∈ job.passes, PassRight pass) : job.Kept where
  clock := clock
  cached := fun _ => ⟨armed, cached⟩
  due := due
  firing := fun _ _ _ _ _ _ isFiring => by
    rw [isFiring] at free
    exact absurd free id
  running := fun _ faulty => by
    rw [faulty] at free
    exact absurd free id
  passes := passes

theorem Kept.of_firing {job : CJob} {time current attempts : Nat}
    {offered fired : List CIOTimer} {moved : Bool}
    (phase : job.phase = .firing time offered fired current attempts moved)
    (clock : time ≤ job.now) (firing : job.FiringKept time offered fired current attempts moved)
    (passes : ∀ pass ∈ job.passes, PassRight pass) : job.Kept where
  clock := fun other same => by
    rw [phase] at same
    obtain rfl := Option.some.inj same
    exact clock
  cached := fun free => by
    rw [phase] at free
    exact absurd free id
  due := fun _ other => by
    rw [phase] at other
    cases other
  firing := fun _ _ _ _ _ _ same => by
    rw [phase] at same
    cases same
    exact firing
  running := fun _ faulty => by
    rw [phase] at faulty
    cases faulty
  passes := passes

/-! ### One step -/

section Step

variable {job : CJob}

theorem Armed.ne_nil (armed : job.Armed) : job.queue ≠ [] := by
  obtain ⟨timer, member, _⟩ := armed
  exact List.ne_nil_of_mem member

theorem pushTimer_open (job : CJob) (timer : CIOTimer) (grown : Nat)
    (open_ : job.terminating = false) :
    job.pushTimer timer grown =
      { job with
        queue := timer :: job.queue
        capacity := if job.queue.length < job.capacity then job.capacity else grown
        topTick := if 0 < distance job.topTick timer.mTick then timer.mTick else job.topTick } := by
  unfold pushTimer
  rw [if_neg (by rw [open_]; decide)]

theorem pushTimer_cached (timer : CIOTimer) (grown : Nat) (cached : job.Cached)
    (open_ : job.terminating = false)
    (near : ∀ other ∈ job.queue, Near other.due timer.due) :
    (job.pushTimer timer grown).Cached := by
  obtain ⟨top, member, cache, least⟩ := cached
  have apart := distance_tick top.due timer.due (near top member)
  rw [pushTimer_open job timer grown open_, cache]
  unfold Cached CIOTimer.mTick
  simp only [apart]
  by_cases earlier : (0 : Int) < (top.due : Int) - timer.due
  · rw [if_pos earlier]
    refine ⟨timer, List.mem_cons_self, rfl, List.forall_mem_cons.mpr ⟨Nat.le_refl _, ?_⟩⟩
    intro other inQueue
    have above := least other inQueue
    omega
  · rw [if_neg earlier]
    refine ⟨top, List.mem_cons_of_mem _ member, rfl, List.forall_mem_cons.mpr ⟨by omega, least⟩⟩

theorem advance_kept (kept : job.Kept) (elapsed : Nat) :
    Kept { job with now := job.now + elapsed } where
  clock := fun time same => Nat.le_add_right_of_le (kept.clock time same)
  cached := kept.cached
  due := kept.due
  firing := fun time offered fired current attempts moved same =>
    let firing := kept.firing time offered fired current attempts moved same
    ⟨firing.still, firing.drain, firing.due, firing.armed⟩
  running := kept.running
  passes := kept.passes

theorem pushTimer_kept (kept : job.Kept) (timer : CIOTimer) (grown : Nat)
    (free : Phase.LockFree job.phase) (open_ : job.terminating = false)
    (near : ∀ other ∈ job.queue, Near other.due timer.due) :
    (job.pushTimer timer grown).Kept := by
  obtain ⟨⟨own, inQueue, isTopTimer⟩, cached⟩ := kept.cached free
  have nextCached := pushTimer_cached timer grown cached open_ near
  rw [pushTimer_open job timer grown open_] at nextCached ⊢
  refine Kept.of_lockFree free kept.clock ⟨own, List.mem_cons_of_mem _ inQueue, isTopTimer⟩
    nextCached ?_ ?_
  · intro time same
    obtain ⟨first, member, isDue⟩ := kept.due time same
    exact ⟨first, List.mem_cons_of_mem _ member, isDue⟩
  · exact kept.passes

/-- What is on top of the queue is the earliest timer. -/
theorem least_of_mayBeTop (window : job.InWindow) (top : CIOTimer)
    (chosen : MayBeTop job.queue top) : ∀ other ∈ job.queue, top.due ≤ other.due :=
  least_of_isTop CIOTimer.Less CIOTimer.due job.queue top (chosen.2 window.mutual_)
    fun left inLeft right inRight => left.less_iff right (window.mutual_ left inLeft right inRight)

theorem armed_pop (armed : job.Armed) (top : CIOTimer) (time : Nat)
    (offered fired : List CIOTimer) (moved : Bool) :
    (job.pop top time offered fired moved).Armed ∨ (top.object = ioTopTimer ∧ 0 = 0) := by
  by_cases own : top.object = ioTopTimer
  · exact Or.inr ⟨own, rfl⟩
  · obtain ⟨timer, member, isTopTimer⟩ := armed
    have differs : timer ≠ top := fun same => own (same ▸ isTopTimer)
    exact Or.inl ⟨timer, (List.mem_erase_of_ne differs).mpr member, isTopTimer⟩

theorem armed_push (current attempts object milisec grown : Nat) (open_ : job.terminating = false)
    (armed : job.Armed ∨ (current = ioTopTimer ∧ attempts = 0))
    (allowed : MayPush current attempts object milisec) :
    (job.pushTimer ⟨job.now + milisec, object⟩ grown).Armed := by
  rw [pushTimer_open job _ grown open_]
  rcases armed with ⟨timer, member, isTopTimer⟩ | own
  · exact ⟨timer, List.mem_cons_of_mem _ member, isTopTimer⟩
  · unfold MayPush at allowed
    rw [if_pos own.1] at allowed
    exact ⟨_, List.mem_cons_self, allowed.2.1⟩

theorem pop_kept (window : job.InWindow) (top : CIOTimer) (time : Nat)
    (offered fired : List CIOTimer) (chosen : MayBeTop job.queue top) (isDue : top.due ≤ time)
    (clock : time ≤ job.now) (armed : job.Armed)
    (drain : Drain CIOTimer.due offered fired job.queue)
    (due : ∀ timer ∈ fired, timer.due ≤ time) (passes : ∀ pass ∈ job.passes, PassRight pass) :
    (job.pop top time offered fired false).Kept := by
  refine Kept.of_firing rfl clock ?_ passes
  constructor
  · rfl
  · exact drain.pop top chosen.1 (least_of_mayBeTop window top chosen)
  · intro timer member
    rcases List.mem_append.mp member with earlier | isTop
    · exact due timer earlier
    · rw [List.mem_singleton.mp isTop]
      exact isDue
  · exact armed_pop armed top time offered fired false

theorem readClock_kept (kept : job.Kept) (looping : job.phase = .looping) :
    Kept { job with phase := .clocked job.now } := by
  have free : Phase.LockFree job.phase := by
    rw [looping]
    trivial
  obtain ⟨armed, cached⟩ := kept.cached free
  refine Kept.of_lockFree trivial ?_ armed cached ?_ kept.passes
  · intro time same
    exact Nat.le_of_eq (Option.some.inj same).symm
  · intro time other
    cases other

/-- A pass that ends at a top timer of the future is right, and `RunTimer` waits. -/
theorem waits_kept (time : Nat) (offered fired : List CIOTimer) (top : CIOTimer)
    (member : top ∈ job.queue) (least : ∀ other ∈ job.queue, top.due ≤ other.due)
    (later : time < top.due) (armed : job.Armed)
    (drain : Drain CIOTimer.due offered fired job.queue)
    (due : ∀ timer ∈ fired, timer.due ≤ time) (passes : ∀ pass ∈ job.passes, PassRight pass) :
    Kept { job with
      topTick := top.mTick
      phase := .waiting
      passes := job.passes ++ [⟨time, offered, fired, job.queue⟩] } := by
  refine Kept.of_lockFree trivial ?_ armed ⟨top, member, rfl, least⟩ ?_ ?_
  · intro other none
    cases none
  · intro other same
    cases same
  · intro pass inPasses
    rcases List.mem_append.mp inPasses with earlier | last
    · exact passes pass earlier
    · obtain rfl := List.mem_singleton.mp last
      refine ⟨drain.kept, drain.ascending, due, fun timer inQueue => ?_⟩
      exact Nat.lt_of_lt_of_le later (least timer inQueue)

theorem readTopTick_kept (kept : job.Kept) (window : job.InWindow) (time : Nat)
    (clocked : job.phase = .clocked time) :
    (distance job.topTick (tick time) ≤ 0 → Kept { job with phase := .due time }) ∧
      (¬ distance job.topTick (tick time) ≤ 0 →
        Kept { job with
          phase := .waiting
          passes := job.passes ++ [⟨time, job.queue, [], job.queue⟩] }) := by
  have free : Phase.LockFree job.phase := by
    rw [clocked]
    trivial
  have atClock : Phase.clock job.phase = some time := by
    rw [clocked]
    rfl
  obtain ⟨armed, top, member, cache, least⟩ := kept.cached free
  have apart := distance_tick top.due time (window.clock time atClock top member)
  have first : distance job.topTick (tick time) = (top.due : Int) - time := cache ▸ apart
  rw [first]
  constructor
  · intro isDue
    refine Kept.of_lockFree trivial ?_ armed ⟨top, member, cache, least⟩ ?_ kept.passes
    · intro other same
      obtain rfl := Option.some.inj same
      exact kept.clock time atClock
    · intro other same
      cases same
      exact ⟨top, member, by omega⟩
  · intro later
    have waits := waits_kept time job.queue [] top member least (by omega) armed
      (Drain.start job.queue) (List.forall_mem_nil _) kept.passes
    rw [← cache] at waits
    exact waits

theorem enter_kept (kept : job.Kept) (window : job.InWindow) (time : Nat) (top : CIOTimer)
    (due : job.phase = .due time) (chosen : MayBeTop job.queue top) :
    (job.pop top time job.queue [] false).Kept := by
  have free : Phase.LockFree job.phase := by
    rw [due]
    trivial
  obtain ⟨armed, _⟩ := kept.cached free
  obtain ⟨first, member, firstDue⟩ := kept.due time due
  have isDue := Nat.le_trans (least_of_mayBeTop window top chosen first member) firstDue
  have clock := kept.clock time (by rw [due]; rfl)
  exact pop_kept window top time job.queue [] chosen isDue clock armed (Drain.start job.queue)
    (List.forall_mem_nil _) kept.passes

theorem callbackPush_kept (kept : job.Kept) (open_ : job.terminating = false)
    (object milisec grown time current attempts : Nat) (offered fired : List CIOTimer)
    (moved : Bool) (fits : job.queue.length < job.capacity)
    (phase : job.phase = .firing time offered fired current attempts moved)
    (allowed : MayPush current attempts object milisec) :
    (job.callbackPush time offered fired current attempts moved
      ⟨job.now + milisec, object⟩ grown).Kept := by
  have firing := kept.firing time offered fired current attempts moved phase
  have clock := kept.clock time (by rw [phase]; rfl)
  have pushed : job.callbackPush time offered fired current attempts moved
      ⟨job.now + milisec, object⟩ grown =
      { job.pushTimer ⟨job.now + milisec, object⟩ grown with
        phase := .firing time (⟨job.now + milisec, object⟩ :: offered) fired current
          (attempts + 1) false } := by
    unfold callbackPush
    rw [if_neg (by rw [open_]; decide), firing.still, decide_eq_false (not_not.mpr fits)]
    rfl
  have armed := armed_push current attempts object milisec grown open_ firing.armed allowed
  rw [pushTimer_open job _ grown open_] at armed
  rw [pushed, pushTimer_open job _ grown open_]
  refine Kept.of_firing rfl clock ?_ kept.passes
  constructor
  · rfl
  · apply firing.drain.push
    intro timer member
    have before := firing.due timer member
    simp only
    omega
  · exact firing.due
  · exact Or.inl armed

theorem callbackReturn_kept (kept : job.Kept) (window : job.InWindow) (time current attempts : Nat)
    (offered fired : List CIOTimer) (moved : Bool) (top : CIOTimer) (next : CJob)
    (phase : job.phase = .firing time offered fired current attempts moved)
    (pushed : ¬ (current = ioTopTimer ∧ attempts = 0))
    (decided : Decides job time offered fired moved top next) : next.Kept := by
  have firing := kept.firing time offered fired current attempts moved phase
  have atClock : Phase.clock job.phase = some time := by
    rw [phase]
    rfl
  have clock := kept.clock time atClock
  have armed : job.Armed := firing.armed.resolve_right pushed
  cases decided with
  | empty empty => exact absurd empty armed.ne_nil
  | moved filled isMoved =>
      rw [firing.still] at isMoved
      cases isMoved
  | stops chosen later =>
      have least := least_of_mayBeTop window top chosen
      have apart : distance top.mTick (tick time) = (top.due : Int) - time :=
        distance_tick top.due time (window.clock time atClock top chosen.1)
      rw [apart] at later
      exact waits_kept time offered fired top chosen.1 least (by omega) armed firing.drain
        firing.due kept.passes
  | pops chosen isDue =>
      have apart : distance top.mTick (tick time) = (top.due : Int) - time :=
        distance_tick top.due time (window.clock time atClock top chosen.1)
      rw [apart] at isDue
      exact pop_kept window top time offered fired chosen (by omega) clock armed firing.drain
        firing.due kept.passes

theorem wake_kept (kept : job.Kept) (waiting : job.phase = .waiting) :
    Kept { job with phase := .looping } := by
  have free : Phase.LockFree job.phase := by
    rw [waiting]
    trivial
  obtain ⟨armed, cached⟩ := kept.cached free
  refine Kept.of_lockFree trivial ?_ armed cached ?_ kept.passes
  · intro time none
    cases none
  · intro time other
    cases other

theorem step_kept (event : Event) (next : CJob) (kept : job.Kept) (window : job.InWindow)
    (after : next.InWindow) (fits : job.CallbackFits event)
    (step : job.step event = some next) : next.Kept := by
  cases step_takes job next event step with
  | advance elapsed => exact advance_kept kept elapsed
  | pushTimer object milisec reading grown free other room =>
      refine pushTimer_kept kept _ grown free window.open_ fun other member => ?_
      have near := after.mutual_
      rw [pushTimer_open job _ grown window.open_] at near
      exact near other (List.mem_cons_of_mem _ member) _ List.mem_cons_self
  | readClock looping => exact readClock_kept kept looping
  | reached time clocked isDue => exact (readTopTick_kept kept window time clocked).1 isDue
  | ahead time clocked later => exact (readTopTick_kept kept window time clocked).2 later
  | enter time top due chosen => exact enter_kept kept window time top due chosen
  | enterEmpty time top due empty =>
      have free : Phase.LockFree job.phase := by
        rw [due]
        trivial
      exact absurd empty (kept.cached free).1.ne_nil
  | callbackPush time current attempts object milisec grown offered fired moved phase allowed room =>
      exact callbackPush_kept kept window.open_ object milisec grown time current attempts
        offered fired moved fits phase allowed
  | callbackReturn time current attempts offered fired moved top next phase pushed decided =>
      exact callbackReturn_kept kept window time current attempts offered fired moved top next
        phase pushed decided
  | setTerminate => cases after.open_
  | wake waiting running => exact wake_kept kept waiting
  | finish waiting terminated =>
      rw [window.open_] at terminated
      cases terminated

end Step

/-! ### Whole runs -/

/-- As long as no push from inside a callback makes the vector grow, the cache is
right whenever the lock is free, and every pass fires what is due. -/
theorem timely_throughout (now spare : Nat) (events : List Event)
    (window : machine.Throughout InWindow (create now spare) events)
    (fits : machine.Guarded CallbackFits (create now spare) events) :
    machine.Throughout Timely (create now spare) events :=
  machine.throughout_of_guarded_within InWindow Kept Timely CallbackFits
    (fun _ event next kept inside after guard step => step_kept event next kept inside after guard step)
    (fun _ kept _ => kept.timely) events (create now spare) (create_kept now spare) window fits

def repeatingRun : List Event :=
  [.pushTimer 1 0 0 2, .readClock, .readTopTick, .enter ⟨0, 1⟩, .callbackPush 1 1000 2,
    .callbackReturn ⟨1000, 1⟩]

theorem repeatingRun_timely : machine.Throughout Timely (create 0 0) repeatingRun :=
  timely_throughout 0 0 repeatingRun
    ((machine.throughout_iff_trace _ _ _).mpr (by decide))
    ((machine.guarded_iff_taken _ _ _).mpr (by decide))

def crowdedRun : List Event :=
  [.pushTimer 1 0 0 2, .readClock, .readTopTick, .enter ⟨0, 1⟩, .callbackPush 1 1000 2,
    .callbackPush 1 2000 3, .callbackReturn ⟨1000, 1⟩]

theorem moved_vector_used :
    ¬ ∀ (now spare : Nat) (events : List Event),
      machine.Throughout InWindow (create now spare) events →
        machine.Throughout Timely (create now spare) events := by
  intro claimed
  have timely := claimed 0 0 crowdedRun ((machine.throughout_iff_trace _ _ _).mpr (by decide))
  rw [machine.throughout_iff_trace] at timely
  have last := List.getElem_mem (show 7 < (machine.trace (create 0 0) crowdedRun).length by decide)
  exact (timely _ last).running .dangling rfl

/-! ### Callbacks that push once -/

def PushesOnce (job : CJob) : Event → Prop
  | .callbackPush .. => ∀ time offered fired current attempts moved,
      job.phase = .firing time offered fired current attempts moved → attempts = 0
  | _ => True

/-- In a callback that has not pushed yet there is the room of the timer that was
popped for it. -/
structure Roomy (job : CJob) : Prop where
  within : job.queue.length ≤ job.capacity
  popped : ∀ time offered fired current moved,
    job.phase = .firing time offered fired current 0 moved → job.queue.length < job.capacity

theorem pushTimer_within (job : CJob) (timer : CIOTimer) (grown : Nat)
    (within : job.queue.length ≤ job.capacity) (fits : job.Fits grown) :
    (job.pushTimer timer grown).queue.length ≤ (job.pushTimer timer grown).capacity := by
  unfold pushTimer
  split
  · exact within
  · simp only [List.length_cons]
    split
    · omega
    · rename_i full
      exact fits.resolve_left full

theorem pop_roomy (job : CJob) (top : CIOTimer) (time : Nat) (offered fired : List CIOTimer)
    (moved : Bool) (chosen : MayBeTop job.queue top) (within : job.queue.length ≤ job.capacity) :
    (job.pop top time offered fired moved).Roomy := by
  have positive := List.length_pos_of_mem chosen.1
  have shorter : (job.queue.erase top).length < job.capacity := by
    rw [List.length_erase_of_mem chosen.1]
    omega
  exact ⟨Nat.le_of_lt shorter, fun _ _ _ _ _ _ => shorter⟩

theorem pushTimer_phase (job : CJob) (timer : CIOTimer) (grown : Nat) :
    (job.pushTimer timer grown).phase = job.phase := by
  unfold pushTimer
  split
  · rfl
  · rfl

theorem Roomy.of_lockFree {job : CJob} (free : Phase.LockFree job.phase)
    (within : job.queue.length ≤ job.capacity) : job.Roomy :=
  ⟨within, fun _ _ _ _ _ isFiring => by
    rw [isFiring] at free
    exact absurd free id⟩

theorem step_roomy (job : CJob) (event : Event) (next : CJob) (roomy : job.Roomy)
    (step : job.step event = some next) : next.Roomy := by
  cases step_takes job next event step with
  | advance elapsed => exact ⟨roomy.within, roomy.popped⟩
  | pushTimer object milisec reading grown free other fits =>
      refine Roomy.of_lockFree ?_ (pushTimer_within job _ grown roomy.within fits)
      rw [pushTimer_phase]
      exact free
  | readClock looping => exact Roomy.of_lockFree trivial roomy.within
  | reached time clocked isDue => exact Roomy.of_lockFree trivial roomy.within
  | ahead time clocked later => exact Roomy.of_lockFree trivial roomy.within
  | enter time top due chosen =>
      exact pop_roomy job top time job.queue [] false chosen roomy.within
  | enterEmpty time top due empty => exact ⟨roomy.within, fun _ _ _ _ _ other => by cases other⟩
  | callbackPush time current attempts object milisec grown offered fired moved phase allowed fits =>
      refine ⟨pushTimer_within job _ grown roomy.within fits, ?_⟩
      intro _ _ _ _ _ same
      unfold callbackPush at same
      simp only at same
      split at same
      · cases same
      · cases same
  | callbackReturn time current attempts offered fired moved top next phase pushed decided =>
      cases decided with
      | empty empty => exact ⟨roomy.within, fun _ _ _ _ _ other => by cases other⟩
      | moved filled isMoved => exact ⟨roomy.within, fun _ _ _ _ _ other => by cases other⟩
      | stops chosen later => exact Roomy.of_lockFree trivial roomy.within
      | pops chosen isDue => exact pop_roomy job top time offered fired false chosen roomy.within
  | setTerminate => exact ⟨roomy.within, roomy.popped⟩
  | wake waiting running => exact Roomy.of_lockFree trivial roomy.within
  | finish waiting terminated => exact Roomy.of_lockFree trivial (Nat.zero_le _)

/-- Callbacks that push no more than one timer, as all of the server's do, never
find the vector full. -/
theorem callbackFits_of_pushesOnce (now spare : Nat) (events : List Event)
    (once : machine.Guarded PushesOnce (create now spare) events) :
    machine.Guarded CallbackFits (create now spare) events := by
  refine machine.guarded_of_guarded Roomy PushesOnce CallbackFits ?_ ?_ events
    (create now spare) (Roomy.of_lockFree trivial (Nat.le_add_left 1 spare)) once
  · intro job event next roomy _ step
    exact step_roomy job event next roomy step
  · intro job event next roomy first step
    cases step_takes job next event step with
    | callbackPush time current attempts object milisec grown offered fired moved phase _ _ =>
        obtain rfl := first time offered fired current attempts moved phase
        exact roomy.popped time offered fired current moved phase
    | _ => trivial

end CJob

end AuthServer
