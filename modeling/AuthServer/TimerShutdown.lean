/-
The timer queue while the server shuts down.

The queue is never empty as long as the top timer pushes itself again.  From
`SetTerminate` on `PushTimer` refuses everything, and what is in the queue is
all that will be.
-/

import AuthServer.TimerQueue

set_option autoImplicit false

namespace AuthServer

open EventRuns PriorityQueue TickClock

namespace CJob

/-- `top()` and `pop()` have not been called on an empty queue. -/
def NeverEmpty (job : CJob) : Prop := job.phase ≠ .fault .emptyQueue

def Phase.InCallback : Phase → Prop
  | .firing .. => True
  | _ => False

instance (phase : Phase) : Decidable (Phase.InCallback phase) :=
  match phase with
  | .firing .. => isTrue trivial
  | .looping | .clocked _ | .due _ | .waiting | .finished | .fault _ => isFalse id

/-- A timer stays in the queue: behind `SetTerminate` in a callback, and
afterwards at every timer that is taken off to be fired. -/
def LeavesOne (job : CJob) : Event → Prop
  | .setTerminate => Phase.InCallback job.phase → job.queue ≠ []
  | .enter _ => job.terminating = true → 2 ≤ job.queue.length
  | .callbackReturn top => job.terminating = true →
      ∀ time ∈ Phase.clock job.phase, distance top.mTick (tick time) ≤ 0 → 2 ≤ job.queue.length
  | _ => True

instance (job : CJob) (event : Event) : Decidable (job.LeavesOne event) :=
  match event with
  | .setTerminate => inferInstanceAs (Decidable (_ → _))
  | .enter _ => inferInstanceAs (Decidable (_ → _))
  | .callbackReturn top => inferInstanceAs (Decidable (job.terminating = true →
      ∀ time ∈ Phase.clock job.phase, distance top.mTick (tick time) ≤ 0 → 2 ≤ job.queue.length))
  | .advance _ | .pushTimer .. | .readClock | .readTopTick | .callbackPush .. | .wake =>
      isTrue trivial

structure Filled (job : CJob) : Prop where
  free : Phase.LockFree job.phase → job.phase ≠ .finished → job.queue ≠ []
  armed : Phase.LockFree job.phase → job.terminating = false → job.Armed
  pushing : ∀ time offered fired current attempts moved,
    job.phase = .firing time offered fired current attempts moved →
      job.terminating = false → job.Armed ∨ (current = ioTopTimer ∧ attempts = 0)
  remaining : Phase.InCallback job.phase → job.terminating = true → job.queue ≠ []
  sound : job.NeverEmpty

theorem create_filled (now spare : Nat) : (create now spare).Filled where
  free := fun _ _ => List.cons_ne_nil _ _
  armed := fun _ _ => ⟨_, List.mem_singleton_self _, rfl⟩
  pushing := fun _ _ _ _ _ _ other => by cases other
  remaining := fun inCallback => absurd inCallback id
  sound := fun other => by cases other

section Step

variable {job : CJob}

theorem Filled.of_lockFree (free : Phase.LockFree job.phase)
    (filled : job.phase ≠ .finished → job.queue ≠ [])
    (armed : job.terminating = false → job.Armed) : job.Filled where
  free := fun _ => filled
  armed := fun _ => armed
  pushing := fun _ _ _ _ _ _ isFiring => by
    rw [isFiring] at free
    exact absurd free id
  remaining := fun inCallback => by
    cases phase : job.phase with
    | firing time offered fired current attempts moved =>
        rw [phase] at free
        exact absurd free id
    | _ =>
        rw [phase] at inCallback
        exact absurd inCallback id
  sound := fun faulty => by
    rw [faulty] at free
    exact absurd free id

theorem Filled.of_firing {time current attempts : Nat} {offered fired : List CIOTimer}
    {moved : Bool} (phase : job.phase = .firing time offered fired current attempts moved)
    (pushing : job.terminating = false → job.Armed ∨ (current = ioTopTimer ∧ attempts = 0))
    (remaining : job.terminating = true → job.queue ≠ []) : job.Filled where
  free := fun free => by
    rw [phase] at free
    exact absurd free id
  armed := fun free => by
    rw [phase] at free
    exact absurd free id
  pushing := fun _ _ _ _ _ _ same => by
    rw [phase] at same
    cases same
    exact pushing
  remaining := fun _ => remaining
  sound := fun faulty => by
    rw [phase] at faulty
    cases faulty

theorem Filled.moves (filled : job.Filled) (free : Phase.LockFree job.phase)
    (notFinished : job.phase ≠ .finished) (phase : Phase) (nextFree : Phase.LockFree phase)
    (passes : List Pass) : Filled { job with phase := phase, passes := passes } :=
  Filled.of_lockFree nextFree (fun _ => filled.free free notFinished) (filled.armed free)

theorem pushTimer_armed (timer : CIOTimer) (grown : Nat) (armed : job.Armed) :
    (job.pushTimer timer grown).Armed := by
  unfold pushTimer
  split
  · exact armed
  · obtain ⟨own, member, isTopTimer⟩ := armed
    exact ⟨own, List.mem_cons_of_mem _ member, isTopTimer⟩

theorem pushTimer_filled (filled : job.Filled) (timer : CIOTimer) (grown : Nat)
    (free : Phase.LockFree job.phase) : (job.pushTimer timer grown).Filled := by
  cases open_ : job.terminating with
  | true =>
      unfold pushTimer
      rw [if_pos open_]
      exact filled
  | false =>
      have armed := pushTimer_armed timer grown (filled.armed free open_)
      refine Filled.of_lockFree ?_ (fun _ => armed.ne_nil) fun _ => armed
      rw [pushTimer_phase]
      exact free

theorem pop_filled (top : CIOTimer) (time : Nat) (offered fired : List CIOTimer) (moved : Bool)
    (member : top ∈ job.queue) (armed : job.terminating = false → job.Armed)
    (leaves : job.terminating = true → 2 ≤ job.queue.length) :
    (job.pop top time offered fired moved).Filled := by
  refine Filled.of_firing rfl ?_ ?_
  · intro open_
    exact armed_pop (armed open_) top time offered fired moved
  · intro terminated
    have several := leaves terminated
    have shorter := List.length_erase_of_mem member
    intro none
    change job.queue.erase top = [] at none
    rw [none, List.length_nil] at shorter
    omega

theorem callbackPush_filled (filled : job.Filled)
    (object milisec grown time current attempts : Nat) (offered fired : List CIOTimer)
    (moved : Bool) (phase : job.phase = .firing time offered fired current attempts moved)
    (allowed : MayPush current attempts object milisec) :
    (job.callbackPush time offered fired current attempts moved
      ⟨job.now + milisec, object⟩ grown).Filled := by
  have inCallback : Phase.InCallback job.phase := by
    rw [phase]
    trivial
  unfold callbackPush
  cases open_ : job.terminating with
  | true =>
      have refused : job.pushTimer ⟨job.now + milisec, object⟩ grown = job := if_pos open_
      rw [refused, if_pos rfl]
      refine Filled.of_firing rfl ?_ fun _ => filled.remaining inCallback open_
      intro reopened
      rw [open_] at reopened
      cases reopened
  | false =>
      have armed := armed_push current attempts object milisec grown open_
        (filled.pushing _ _ _ _ _ _ phase open_) allowed
      rw [if_neg Bool.false_ne_true]
      exact Filled.of_firing rfl (fun _ => Or.inl armed) fun _ => armed.ne_nil

theorem callbackReturn_filled (filled : job.Filled) (time current attempts : Nat)
    (offered fired : List CIOTimer) (moved : Bool) (top : CIOTimer) (next : CJob)
    (phase : job.phase = .firing time offered fired current attempts moved)
    (pushed : ¬ (current = ioTopTimer ∧ attempts = 0))
    (leaves : job.LeavesOne (.callbackReturn top))
    (decided : Decides job time offered fired moved top next) : next.Filled := by
  have inCallback : Phase.InCallback job.phase := by
    rw [phase]
    trivial
  have armed : job.terminating = false → job.Armed := fun open_ =>
    (filled.pushing _ _ _ _ _ _ phase open_).resolve_right pushed
  have remaining : job.queue ≠ [] := by
    cases open_ : job.terminating with
    | true => exact filled.remaining inCallback open_
    | false => exact (armed open_).ne_nil
  cases decided with
  | empty empty => exact absurd empty remaining
  | moved filled isMoved =>
      refine ⟨fun free => absurd free id, fun free => absurd free id, ?_,
        fun inside => absurd inside id, ?_⟩
      · intro _ _ _ _ _ _ other
        cases other
      · intro other
        cases other
  | stops chosen later => exact Filled.of_lockFree trivial (fun _ => remaining) armed
  | pops chosen isDue =>
      refine pop_filled top time offered fired false chosen.1 armed fun terminated => ?_
      exact leaves terminated time (by rw [phase]; rfl) (by omega)

theorem setTerminate_filled (filled : job.Filled) (leaves : job.LeavesOne .setTerminate) :
    Filled { job with terminating := true } where
  free := filled.free
  armed := fun _ open_ => by cases open_
  pushing := fun _ _ _ _ _ _ _ open_ => by cases open_
  remaining := fun inCallback _ => leaves inCallback
  sound := filled.sound

theorem step_filled (event : Event) (next : CJob) (filled : job.Filled)
    (leaves : job.LeavesOne event) (step : job.step event = some next) : next.Filled := by
  cases step_takes job next event step with
  | advance elapsed =>
      exact ⟨filled.free, filled.armed, filled.pushing, filled.remaining, filled.sound⟩
  | pushTimer object milisec reading grown free other fits =>
      exact pushTimer_filled filled _ grown free
  | readClock looping =>
      exact filled.moves (by rw [looping]; trivial) (by rw [looping]; nofun) (.clocked job.now)
        trivial _
  | reached time clocked isDue =>
      exact filled.moves (by rw [clocked]; trivial) (by rw [clocked]; nofun) (.due time) trivial _
  | ahead time clocked later =>
      exact filled.moves (by rw [clocked]; trivial) (by rw [clocked]; nofun) .waiting trivial _
  | enter time top due chosen =>
      exact pop_filled top time job.queue [] false chosen.1
        (filled.armed (by rw [due]; trivial)) leaves
  | enterEmpty time top due empty =>
      exact absurd empty (filled.free (by rw [due]; trivial) (by rw [due]; nofun))
  | callbackPush time current attempts object milisec grown offered fired moved phase allowed fits =>
      exact callbackPush_filled filled object milisec grown time current attempts offered fired
        moved phase allowed
  | callbackReturn time current attempts offered fired moved top next phase pushed decided =>
      exact callbackReturn_filled filled time current attempts offered fired moved top next phase
        pushed leaves decided
  | setTerminate => exact setTerminate_filled filled leaves
  | wake waiting running =>
      exact filled.moves (by rw [waiting]; trivial) (by rw [waiting]; nofun) .looping trivial _
  | finish waiting terminated =>
      refine Filled.of_lockFree trivial (fun other => absurd rfl other) fun open_ => ?_
      change job.terminating = false at open_
      rw [terminated] at open_
      cases open_

end Step

/-- With a timer left in the queue at each of these steps, `RunTimer` never looks
for a timer in vain. -/
theorem neverEmpty_throughout (now spare : Nat) (events : List Event)
    (leaves : machine.Guarded LeavesOne (create now spare) events) :
    machine.Throughout NeverEmpty (create now spare) events :=
  machine.throughout_of_guarded Filled NeverEmpty LeavesOne
    (fun _ event next filled guard step => step_filled event next filled guard step)
    (fun _ filled => filled.sound) events (create now spare) (create_filled now spare) leaves

def lateTerminate : List Event :=
  [.advance topTickExpire, .readClock, .readTopTick, .enter ⟨topTickExpire, ioTopTimer⟩,
    .callbackPush ioTopTimer topTickExpire 2, .setTerminate,
    .callbackReturn ⟨2 * topTickExpire, ioTopTimer⟩, .wake]

theorem lateTerminate_neverEmpty : machine.Throughout NeverEmpty (create 0 0) lateTerminate :=
  neverEmpty_throughout 0 0 lateTerminate ((machine.guarded_iff_taken _ _ _).mpr (by decide))

def earlyTerminate : List Event :=
  [.advance topTickExpire, .readClock, .readTopTick, .enter ⟨topTickExpire, ioTopTimer⟩,
    .setTerminate, .callbackPush ioTopTimer topTickExpire 2,
    .callbackReturn ⟨topTickExpire, ioTopTimer⟩]

theorem empty_queue_searched :
    ¬ ∀ (now spare : Nat) (events : List Event),
      machine.Throughout NeverEmpty (create now spare) events := by
  intro claimed
  have never := claimed 0 0 earlyTerminate
  rw [machine.throughout_iff_trace] at never
  have last := List.getElem_mem
    (show 7 < (machine.trace (create 0 0) earlyTerminate).length by decide)
  exact never _ last rfl

end CJob

end AuthServer
