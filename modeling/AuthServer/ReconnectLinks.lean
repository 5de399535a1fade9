/-
An outgoing link that reconnects: its pointer, its timer and the timer routine.

Every connection is a new object.  A routine called by the timer queue runs on
a thread of its own, and between its steps anything else can happen: other
routines, completions on any of the objects, sends through the pointer.  The
section under the link's lock, which exchanges the pointer and initializes the
new object, is one step; senders hold the same lock.  The end of the process
is left out.
-/

import AuthServer.LinkSockets

set_option autoImplicit false

namespace AuthServer

/-- How far a call of the timer routine is, with the object it has in hand. -/
inductive Routine where
  | fired
  | checking
  | connecting
  | failed (temp : Nat)
  | connected (temp : Nat)
  | dropping (object : Nat)
  | finished
  deriving DecidableEq, Repr

namespace Routine

def attempting : Routine → Bool
  | .fired | .checking | .connecting | .failed _ | .connected _ => true
  | .dropping _ | .finished => false

def readsFlag : Routine → Bool
  | .fired | .checking => true
  | _ => false

def temp : Routine → Option Nat
  | .failed temp | .connected temp => some temp
  | _ => none

theorem quiet (routine : Routine) (settled : routine.attempting = false) :
    routine.readsFlag = false ∧ routine.temp = none := by
  cases routine <;> first | exact ⟨rfl, rfl⟩ | cases settled

end Routine

structure LinkObject where
  socket : ClientSocket
  created : Bool

structure ReconnectLink where
  globals : LinkGlobals
  objects : List LinkObject
  current : Option Nat
  routines : List Routine

/-- A step of a routine brings along what the system answers to it. -/
inductive LinkEvent where
  | startUp (attempt : Attempt) (setup : Setup)
  | fire (timer : Nat)
  | routine (index : Nat) (attempt : Attempt) (setup : Setup)
  | io (index : Nat) (event : LinkIO)
  | send (sending : Sending)

/-- `DeleteTimerQueueTimer` takes a timer that has not fired off the queue. -/
def LinkGlobals.deleteTimer (globals : LinkGlobals) : LinkGlobals :=
  match globals.timer with
  | none => globals
  | some timer => { globals with timer := none, pending := globals.pending.erase timer }

namespace ReconnectLink

def start : ReconnectLink where
  globals := ⟨false, true, false, none, [], 0⟩
  objects := []
  current := none
  routines := []

def call (link : ReconnectLink) (index : Nat) (body : LinkCall → Option LinkCall) :
    Option ReconnectLink :=
  link.objects[index]?.bind fun object =>
    (body ⟨link.globals, object.socket, object.created⟩).map fun done =>
      { link with
        globals := done.globals
        objects := link.objects.set index ⟨done.socket, done.created⟩ }

def release (link : ReconnectLink) (index : Nat) : Option ReconnectLink :=
  link.call index fun call => some call.releaseRef

def closeSocket (link : ReconnectLink) (index : Nat) : Option ReconnectLink :=
  link.call index fun call => some call.closeSocket

def initializeSocket (kind : LinkKind) (link : ReconnectLink) (index : Nat) (setup : Setup) :
    Option ReconnectLink :=
  link.call index fun call => call.initializeSocket kind setup

def allocate (kind : LinkKind) (link : ReconnectLink) (attempt : Attempt) : ReconnectLink :=
  let made := LinkCall.construct kind link.globals attempt
  { link with
    globals := made.globals
    objects := link.objects ++ [⟨made.socket, made.created⟩] }

def enrol (kind : LinkKind) (link : ReconnectLink) (attempt : Attempt) : ReconnectLink :=
  { link.allocate kind attempt with current := some link.objects.length }

def atRoutine (link : ReconnectLink) (index : Nat) (routine : Routine) : ReconnectLink :=
  { link with routines := link.routines.set index routine }

def startUp (kind : LinkKind) (link : ReconnectLink) (attempt : Attempt) (setup : Setup) :
    Option ReconnectLink :=
  if link.current = none ∧ link.globals.useServer then
    if attempt.outcome = .connected then
      (link.enrol kind attempt).initializeSocket kind link.objects.length setup
    else (link.enrol kind attempt).closeSocket link.objects.length
  else none

/-- The section under the lock.  The old object's reference is given back
outside of it, at its end or before the new object is initialized. -/
def exchange (kind : LinkKind) (link : ReconnectLink) (old temp : Nat) (setup : Setup) :
    Option ReconnectLink :=
  let exchanged :=
    { link with
      current := some temp
      globals := { link.globals with reconnect := false, useServer := true } }
  match kind with
  | .ip => exchanged.initializeSocket kind temp setup
  | .log => (exchanged.initializeSocket kind temp setup).bind fun link => link.release old
  | .wanted => (exchanged.release old).bind fun link => link.initializeSocket kind temp setup

/-- The next step of a routine. -/
def proceed (kind : LinkKind) (link : ReconnectLink) (index : Nat) (attempt : Attempt)
    (setup : Setup) : Routine → Option ReconnectLink
  | .fired =>
      some ({ link with globals := link.globals.deleteTimer }.atRoutine index .checking)
  | .checking =>
      some (link.atRoutine index (if link.globals.reconnect then .connecting else .finished))
  | .connecting =>
      let temp := link.objects.length
      some ((link.allocate kind attempt).atRoutine index
        (if attempt.outcome = .connected then .connected temp else .failed temp))
  | .failed temp =>
      (link.closeSocket temp).map fun link => link.atRoutine index (.dropping temp)
  | .connected temp =>
      link.current.bind fun old =>
        (link.exchange kind old temp setup).map fun link =>
          link.atRoutine index (if kind = .ip then .dropping old else .finished)
  | .dropping object =>
      (link.release object).map fun link => link.atRoutine index .finished
  | .finished => none

def step (kind : LinkKind) (link : ReconnectLink) : LinkEvent → Option ReconnectLink
  | .startUp attempt setup => link.startUp kind attempt setup
  | .fire timer =>
      if timer ∈ link.globals.pending then
        some
          { link with
            globals := { link.globals with pending := link.globals.pending.erase timer }
            routines := link.routines ++ [.fired] }
      else none
  | .routine index attempt setup =>
      link.routines[index]?.bind (link.proceed kind index attempt setup)
  | .io index event => link.call index fun call => call.complete kind event
  | .send sending =>
      link.current.bind fun index => link.call index fun call => some (call.send kind sending)

def machine (kind : LinkKind) : EventRuns.Machine ReconnectLink LinkEvent := ⟨step kind⟩

/-! ### A call on one object -/

theorem call_cases (link next : ReconnectLink) (index : Nat)
    (body : LinkCall → Option LinkCall)
    (ran : link.call index body = some next) :
    ∃ object done, link.objects[index]? = some object ∧
      body ⟨link.globals, object.socket, object.created⟩ = some done ∧
      next = { link with
        globals := done.globals
        objects := link.objects.set index ⟨done.socket, done.created⟩ } := by
  obtain ⟨object, found, called⟩ := Option.bind_eq_some_iff.mp ran
  obtain ⟨done, returned, same⟩ := Option.map_eq_some_iff.mp called
  exact ⟨object, done, found, returned, same.symm⟩

def openAt (link : ReconnectLink) (index : Nat) : Bool :=
  link.objects[index]?.any fun object => object.socket.handleOpen

def Idle (link : ReconnectLink) (index : Nat) : Prop :=
  ∀ object, link.objects[index]? = some object → object.socket.outstanding = 0

/-- What a call on one object does to the handles and to the link. -/
structure Touched (index : Nat) (link next : ReconnectLink) : Prop where
  current : next.current = link.current
  routines : next.routines = link.routines
  length : next.objects.length = link.objects.length
  idle : ∀ other, other ≠ index → link.Idle other → next.Idle other
  settles :
    next.globals = { link.globals with opFlag := next.globals.opFlag } ∧
        (∀ other, next.openAt other = link.openAt other) ∨
      link.openAt index = true ∧
        next.globals = { link.globals.arm with opFlag := next.globals.opFlag } ∧
        ∀ other, next.openAt other = (decide (other ≠ index) && link.openAt other)

/-- A call that leaves the handles and the link as they are. -/
structure Still (link next : ReconnectLink) : Prop where
  current : next.current = link.current
  routines : next.routines = link.routines
  globals : next.globals = link.globals
  length : next.objects.length = link.objects.length
  idle : ∀ other, link.Idle other → next.Idle other
  handles : ∀ other, next.openAt other = link.openAt other

theorem Touched.open_before {index : Nat} {link next : ReconnectLink}
    (touched : Touched index link next) (other : Nat) (isOpen : next.openAt other = true) :
    link.openAt other = true := by
  rcases touched.settles with ⟨_, handles⟩ | ⟨_, _, handles⟩
  · exact (handles other).symm.trans isOpen
  · rw [handles, Bool.and_eq_true] at isOpen
    exact isOpen.2

theorem Touched.still {index : Nat} {link middle next : ReconnectLink}
    (touched : Touched index link middle) (still : Still middle next) :
    Touched index link next where
  current := still.current.trans touched.current
  routines := still.routines.trans touched.routines
  length := still.length.trans touched.length
  idle := fun other different idle => still.idle other (touched.idle other different idle)
  settles := by
    rw [still.globals]
    simp only [still.handles]
    exact touched.settles

theorem Still.touched {index : Nat} {link middle next : ReconnectLink}
    (still : Still link middle) (touched : Touched index middle next) :
    Touched index link next where
  current := touched.current.trans still.current
  routines := touched.routines.trans still.routines
  length := touched.length.trans still.length
  idle := fun other different idle => touched.idle other different (still.idle other idle)
  settles := by
    rw [← still.globals]
    simp only [← still.handles]
    exact touched.settles

theorem any_set {objects : List LinkObject} (test : LinkObject → Bool) {index : Nat}
    (other : Nat) {before : LinkObject} (after : LinkObject)
    (found : objects[index]? = some before) :
    (objects.set index after)[other]?.any test =
      if other = index then test after else objects[other]?.any test := by
  have within := (List.getElem?_eq_some_iff.mp found).1
  rw [List.getElem?_set]
  split
  · rename_i same
    rw [if_pos same.symm, Option.any_some]
  · rename_i different
    rw [if_neg (Ne.symm different)]

theorem openAt_present {link : ReconnectLink} {index : Nat} (isOpen : link.openAt index = true) :
    index < link.objects.length := by
  by_contra beyond
  rw [openAt, List.getElem?_eq_none (by omega)] at isOpen
  contradiction

theorem openAt_set (link : ReconnectLink) (globals : LinkGlobals) (index other : Nat)
    (before after : LinkObject) (found : link.objects[index]? = some before) :
    openAt { link with globals := globals, objects := link.objects.set index after } other =
      if other = index then after.socket.handleOpen else link.openAt other :=
  any_set (fun object => object.socket.handleOpen) other after found

theorem call_touched (link next : ReconnectLink) (index : Nat)
    (body : LinkCall → Option LinkCall)
    (settles : ∀ call done, body call = some done → LinkCall.Settles call done)
    (ran : link.call index body = some next) : Touched index link next := by
  obtain ⟨object, done, found, returned, same⟩ := call_cases link next index body ran
  have openBefore : link.openAt index = object.socket.handleOpen := by
    rw [openAt, found, Option.any_some]
  subst same
  constructor
  · rfl
  · rfl
  · exact List.length_set
  · intro other different idle reached atOther
    apply idle
    rw [← atOther]
    exact (List.getElem?_set_ne (Ne.symm different)).symm
  · simp only [openAt_set link done.globals index _ object ⟨done.socket, done.created⟩ found]
    rcases settles _ done returned with ⟨handle, globals⟩ | ⟨wasOpen, shut, globals⟩
    · apply Or.inl
      constructor
      · exact globals
      · intro other
        split
        · rename_i same
          rw [same, openBefore]
          exact handle
        · rfl
    · apply Or.inr
      rw [openBefore]
      refine ⟨wasOpen, globals, ?_⟩
      intro other
      by_cases same : other = index
      · rw [if_pos same, decide_eq_false (not_not_intro same), Bool.false_and]
        exact shut
      · rw [if_neg same, decide_eq_true same, Bool.true_and]

theorem release_still (link next : ReconnectLink) (index : Nat)
    (ran : link.release index = some next) : Still link next := by
  obtain ⟨object, done, found, returned, same⟩ := call_cases link next index _ ran
  cases returned
  subst same
  have within := (List.getElem?_eq_some_iff.mp found).1
  constructor
  · rfl
  · rfl
  · rfl
  · exact List.length_set
  · intro other idle reached atOther
    simp only [List.getElem?_set] at atOther
    split at atOther
    · rename_i same
      cases atOther
      exact idle object (same ▸ found)
    · exact idle reached atOther
  · intro other
    rw [openAt_set link _ index other object _ found]
    split
    · rename_i same
      rw [same, openAt, found, Option.any_some]
      rfl
    · rfl

theorem closeSocket_openAt (link next : ReconnectLink) (index : Nat)
    (ran : link.closeSocket index = some next) : next.openAt index = false := by
  obtain ⟨object, done, found, returned, same⟩ := call_cases link next index _ ran
  cases returned
  subst same
  rw [openAt_set link _ index index object _ found, if_pos rfl]
  exact LinkCall.closeSocket_shut _

theorem exchange_touched (kind : LinkKind) (link next : ReconnectLink) (old temp : Nat)
    (setup : Setup) (ran : link.exchange kind old temp setup = some next) :
    Touched temp
      { link with
        current := some temp
        globals := { link.globals with reconnect := false, useServer := true } } next := by
  have initializes : ∀ before after : ReconnectLink,
      before.initializeSocket kind temp setup = some after → Touched temp before after :=
    fun before after done => call_touched before after temp _
      (fun call next ran => LinkCall.initializeSocket_settles kind call next setup ran) done
  cases kind with
  | ip => exact initializes _ next ran
  | log =>
      obtain ⟨middle, initialized, released⟩ := Option.bind_eq_some_iff.mp ran
      exact (initializes _ middle initialized).still (release_still middle next old released)
  | wanted =>
      obtain ⟨middle, released, initialized⟩ := Option.bind_eq_some_iff.mp ran
      exact (release_still _ middle old released).touched (initializes middle next initialized)

/-! ### One thing at a time keeps the link going -/

def temps (link : ReconnectLink) : List Nat := link.routines.filterMap Routine.temp

/-- The current connection is open, or a timer is pending, or a routine is at
work: always exactly one of them. -/
structure Tended (link : ReconnectLink) (current : Nat) : Prop where
  pointed : link.current = some current
  present : current < link.objects.length
  once : (if link.openAt current then 1 else 0) + link.globals.pending.length +
    link.routines.countP Routine.attempting = 1
  flagged : 0 < link.globals.pending.length + link.routines.countP Routine.readsFlag →
    link.globals.reconnect = true
  temps : ∀ temp ∈ link.temps, link.openAt temp = true ∧ link.Idle temp
  others : ∀ index, link.openAt index = true → index = current ∨ index ∈ link.temps

theorem Tended.same {link : ReconnectLink} {current : Nat} (tended : link.Tended current)
    (next : ReconnectLink) (pointed : next.current = link.current)
    (length : next.objects.length = link.objects.length)
    (pending : next.globals.pending = link.globals.pending)
    (reconnect : next.globals.reconnect = link.globals.reconnect)
    (handles : ∀ index, next.openAt index = link.openAt index)
    (attempting : next.routines.countP Routine.attempting =
      link.routines.countP Routine.attempting)
    (reading : next.routines.countP Routine.readsFlag = link.routines.countP Routine.readsFlag)
    (temps : next.temps = link.temps) (idle : ∀ temp ∈ link.temps, next.Idle temp) :
    next.Tended current := by
  constructor
  · exact pointed.trans tended.pointed
  · rw [length]
    exact tended.present
  · rw [handles, pending, attempting]
    exact tended.once
  · rw [pending, reading, reconnect]
    exact tended.flagged
  · intro temp member
    rw [temps] at member
    exact ⟨(handles temp).trans (tended.temps temp member).1, idle temp member⟩
  · intro index isOpen
    rw [handles] at isOpen
    rw [temps]
    exact tended.others index isOpen

/-- When the current handle closes, a timer is pending in its place. -/
theorem Tended.closed {link next : ReconnectLink} {current : Nat} (tended : link.Tended current)
    (pointed : next.current = link.current)
    (length : next.objects.length = link.objects.length) (wasOpen : link.openAt current = true)
    (pending : next.globals.pending = link.globals.pending ++ [link.globals.timers])
    (reconnect : next.globals.reconnect = true)
    (handles : ∀ index,
      next.openAt index = (decide (index ≠ current) && link.openAt index))
    (routines : next.routines = link.routines) (notTemp : current ∉ link.temps)
    (idle : ∀ temp ∈ link.temps, next.Idle temp) : next.Tended current := by
  have once := tended.once
  rw [wasOpen, if_pos rfl] at once
  have shut : next.openAt current = false := by
    rw [handles, decide_eq_false (not_not_intro rfl), Bool.false_and]
  have sameTemps : next.temps = link.temps := by
    rw [ReconnectLink.temps, routines]
    rfl
  constructor
  · exact pointed.trans tended.pointed
  · rw [length]
    exact tended.present
  · rw [shut, if_neg nofun, pending, routines, List.length_append, List.length_singleton]
    omega
  · intro _
    exact reconnect
  · intro temp member
    rw [sameTemps] at member
    have different : temp ≠ current := fun same => notTemp (same ▸ member)
    refine ⟨?_, idle temp member⟩
    rw [handles, decide_eq_true different, Bool.true_and]
    exact (tended.temps temp member).1
  · intro index isOpen
    rw [handles, Bool.and_eq_true] at isOpen
    rw [sameTemps]
    exact tended.others index isOpen.2

theorem Tended.touched {link next : ReconnectLink} {current index : Nat}
    (tended : link.Tended current) (touched : Touched index link next)
    (notTemp : index ∉ link.temps) : next.Tended current := by
  have idle : ∀ temp ∈ link.temps, next.Idle temp := by
    intro temp member
    have different : temp ≠ index := fun same => notTemp (same ▸ member)
    exact touched.idle temp different (tended.temps temp member).2
  rcases touched.settles with ⟨globals, handles⟩ | ⟨wasOpen, globals, handles⟩
  · apply tended.same next touched.current touched.length _ _ handles _ _ _ idle
    · rw [globals]
    · rw [globals]
    · rw [touched.routines]
    · rw [touched.routines]
    · rw [ReconnectLink.temps, touched.routines]
      rfl
  · have isCurrent : index = current :=
      (tended.others index wasOpen).resolve_right notTemp
    rw [isCurrent] at wasOpen handles notTemp
    apply tended.closed touched.current touched.length wasOpen _ _ handles touched.routines
      notTemp idle
    · rw [globals]
      rfl
    · rw [globals]
      rfl

theorem set_around {routines : List Routine} {index : Nat} {routine : Routine}
    (found : routines[index]? = some routine) :
    ∃ before after, routines = before ++ routine :: after ∧
      ∀ new, routines.set index new = before ++ new :: after := by
  induction routines generalizing index with
  | nil => cases found
  | cons head tail ih =>
      cases index with
      | zero =>
          cases found
          exact ⟨[], tail, rfl, fun _ => rfl⟩
      | succ index =>
          obtain ⟨before, after, whole, exchanged⟩ := ih found
          refine ⟨head :: before, after, ?_, fun new => ?_⟩
          · rw [whole, List.cons_append]
          · rw [List.set_cons_succ, exchanged, List.cons_append]

theorem quiet_counts (routines : List Routine)
    (quiet : ∀ routine ∈ routines, routine.attempting = false) :
    routines.countP Routine.attempting = 0 ∧ routines.countP Routine.readsFlag = 0 ∧
      routines.filterMap Routine.temp = [] := by
  refine ⟨?_, ?_, ?_⟩
  · rw [List.countP_eq_zero]
    intro routine member attempts
    rw [quiet routine member] at attempts
    contradiction
  · rw [List.countP_eq_zero]
    intro routine member reads
    rw [(Routine.quiet routine (quiet routine member)).1] at reads
    contradiction
  · rw [List.filterMap_eq_nil_iff]
    intro routine member
    exact (Routine.quiet routine (quiet routine member)).2

/-- The same around one routine, when no other one is at work. -/
structure Working (link : ReconnectLink) (current : Nat) (before after : List Routine)
    (routine : Routine) : Prop where
  pointed : link.current = some current
  present : current < link.objects.length
  whole : link.routines = before ++ routine :: after
  quiet : ∀ other ∈ before ++ after, other.attempting = false
  once : (if link.openAt current then 1 else 0) + link.globals.pending.length +
    (if routine.attempting then 1 else 0) = 1
  flagged : 0 < link.globals.pending.length + (if routine.readsFlag then 1 else 0) →
    link.globals.reconnect = true
  temps : ∀ temp, routine.temp = some temp → link.openAt temp = true ∧ link.Idle temp
  others : ∀ index, link.openAt index = true → index = current ∨ routine.temp = some index

theorem mem_temps_around {link : ReconnectLink} {before after : List Routine}
    {routine : Routine} (whole : link.routines = before ++ routine :: after)
    (quiet : ∀ other ∈ before ++ after, other.attempting = false) (temp : Nat) :
    temp ∈ link.temps ↔ routine.temp = some temp := by
  have held := (quiet_counts (before ++ after) quiet).2.2
  rw [List.filterMap_append, List.append_eq_nil_iff] at held
  rw [ReconnectLink.temps, whole, List.filterMap_append, List.filterMap_cons, held.1, held.2]
  cases routine.temp with
  | none => simp
  | some found => simp [eq_comm]

theorem Tended.working {link : ReconnectLink} {current : Nat} {before after : List Routine}
    {routine : Routine} (tended : link.Tended current)
    (whole : link.routines = before ++ routine :: after)
    (attempts : routine.attempting = true) :
    link.Working current before after routine := by
  have once := tended.once
  have flagged := tended.flagged
  rw [whole, List.countP_append, List.countP_cons, attempts, if_pos rfl] at once
  rw [whole, List.countP_append, List.countP_cons] at flagged
  have quiet : ∀ other ∈ before ++ after, other.attempting = false := by
    intro other member
    have none_ : (before ++ after).countP Routine.attempting = 0 := by
      rw [List.countP_append]
      omega
    exact Bool.eq_false_iff.mpr (List.countP_eq_zero.mp none_ other member)
  constructor
  · exact tended.pointed
  · exact tended.present
  · exact whole
  · exact quiet
  · rw [attempts, if_pos rfl]
    omega
  · intro some_
    apply flagged
    omega
  · intro temp held
    exact tended.temps temp ((mem_temps_around whole quiet temp).mpr held)
  · intro index isOpen
    rw [← mem_temps_around whole quiet index]
    exact tended.others index isOpen

theorem Working.tended {link : ReconnectLink} {current : Nat} {before after : List Routine}
    {routine : Routine} (working : link.Working current before after routine) :
    link.Tended current := by
  obtain ⟨attempting, reading, _⟩ := quiet_counts (before ++ after) working.quiet
  rw [List.countP_append] at attempting reading
  have once := working.once
  constructor
  · exact working.pointed
  · exact working.present
  · rw [working.whole, List.countP_append, List.countP_cons]
    omega
  · rw [working.whole, List.countP_append, List.countP_cons]
    intro some_
    apply working.flagged
    omega
  · intro temp member
    exact working.temps temp ((mem_temps_around working.whole working.quiet temp).mp member)
  · intro index isOpen
    rw [mem_temps_around working.whole working.quiet index]
    exact working.others index isOpen

/-- A routine at work leaves nothing open or pending beside it. -/
theorem Working.alone {link : ReconnectLink} {current : Nat} {before after : List Routine}
    {routine : Routine} (working : link.Working current before after routine)
    (attempts : routine.attempting = true) :
    link.openAt current = false ∧ link.globals.pending = [] := by
  have once := working.once
  rw [attempts, if_pos rfl] at once
  constructor
  · by_contra isOpen
    rw [Bool.not_eq_false] at isOpen
    rw [isOpen, if_pos rfl] at once
    omega
  · apply List.eq_nil_of_length_eq_zero
    omega

theorem deleteTimer_pending (globals : LinkGlobals) (none_ : globals.pending = []) :
    globals.deleteTimer.pending = [] := by
  unfold LinkGlobals.deleteTimer
  split
  · exact none_
  · rw [none_, List.erase_nil]

theorem deleteTimer_reconnect (globals : LinkGlobals) :
    globals.deleteTimer.reconnect = globals.reconnect := by
  unfold LinkGlobals.deleteTimer
  split
  · rfl
  · rfl

theorem allocate_openAt (kind : LinkKind) (link : ReconnectLink) (attempt : Attempt)
    (made : attempt.outcome ≠ .noSocket) (index : Nat) :
    (link.allocate kind attempt).openAt index =
      if index = link.objects.length then true else link.openAt index := by
  unfold openAt allocate
  simp only
  split
  · rename_i same
    rw [same, List.getElem?_concat_length, Option.any_some]
    exact decide_eq_true made
  · rename_i different
    rw [List.getElem?_append]
    split
    · rfl
    · rename_i beyond
      rw [List.getElem?_eq_none (l := link.objects) (by omega), List.getElem?_eq_none]
      rw [List.length_singleton]
      omega

theorem allocate_pending (kind : LinkKind) (link : ReconnectLink) (attempt : Attempt) :
    (link.allocate kind attempt).globals.pending = link.globals.pending := by
  cases kind <;> rfl

theorem allocate_idle (kind : LinkKind) (link : ReconnectLink) (attempt : Attempt) :
    (link.allocate kind attempt).Idle link.objects.length := by
  intro object found
  change (link.objects ++ [_])[link.objects.length]? = some object at found
  rw [List.getElem?_concat_length, Option.some.injEq] at found
  rw [← found]
  rfl

section Proceeding

variable {kind : LinkKind} {link next : ReconnectLink} {current index : Nat}
  {before after : List Routine} {attempt : Attempt} {setup : Setup}

theorem Working.fired (working : link.Working current before after .fired)
    (exchanged : ∀ new, link.routines.set index new = before ++ new :: after)
    (ran : link.proceed kind index attempt setup .fired = some next) :
    next.Working current before after .checking := by
  obtain ⟨shut, empty⟩ := working.alone rfl
  have flag : link.globals.reconnect = true := working.flagged (Nat.succ_pos _)
  have stillEmpty := deleteTimer_pending link.globals empty
  cases ran
  constructor
  · exact working.pointed
  · exact working.present
  · exact exchanged .checking
  · exact working.quiet
  · change (if link.openAt current then 1 else 0) + link.globals.deleteTimer.pending.length +
      1 = 1
    rw [shut, stillEmpty]
    rfl
  · intro _
    exact (deleteTimer_reconnect link.globals).trans flag
  · nofun
  · exact working.others

theorem Working.checking (working : link.Working current before after .checking)
    (exchanged : ∀ new, link.routines.set index new = before ++ new :: after)
    (ran : link.proceed kind index attempt setup .checking = some next) :
    next.Working current before after .connecting := by
  have flag : link.globals.reconnect = true := working.flagged (Nat.succ_pos _)
  rw [proceed, if_pos flag] at ran
  cases ran
  constructor
  · exact working.pointed
  · exact working.present
  · exact exchanged .connecting
  · exact working.quiet
  · exact working.once
  · intro _
    exact flag
  · nofun
  · exact working.others

theorem Working.connecting (working : link.Working current before after .connecting)
    (exchanged : ∀ new, link.routines.set index new = before ++ new :: after)
    (made : attempt.outcome ≠ .noSocket)
    (ran : link.proceed kind index attempt setup .connecting = some next) :
    ∃ routine, routine.attempting = true ∧ next.Working current before after routine := by
  obtain ⟨shut, empty⟩ := working.alone rfl
  have present := working.present
  have pending := (allocate_pending kind link attempt).trans empty
  have opened := allocate_openAt kind link attempt made
  have stillShut : (link.allocate kind attempt).openAt current = false := by
    rw [opened, if_neg (by omega), shut]
  have works : ∀ routine : Routine, routine.attempting = true → routine.readsFlag = false →
      routine.temp = some link.objects.length →
      ((link.allocate kind attempt).atRoutine index routine).Working current before after
        routine := by
    intro routine attempts reads held
    constructor
    · exact working.pointed
    · change current < (link.objects ++ [_]).length
      rw [List.length_append]
      omega
    · exact exchanged routine
    · exact working.quiet
    · change (if (link.allocate kind attempt).openAt current then 1 else 0) +
        (link.allocate kind attempt).globals.pending.length + _ = 1
      rw [stillShut, pending, attempts]
      rfl
    · change 0 < (link.allocate kind attempt).globals.pending.length + _ → _
      rw [pending, reads]
      intro impossible
      cases impossible
    · intro temp isTemp
      rw [held, Option.some.injEq] at isTemp
      rw [← isTemp]
      refine ⟨?_, allocate_idle kind link attempt⟩
      exact (opened link.objects.length).trans (if_pos rfl)
    · intro other isOpen
      by_cases same : other = link.objects.length
      · exact Or.inr (same ▸ held)
      · apply Or.inl
        have wasOpen : link.openAt other = true := by
          have step_ := opened other
          rw [if_neg same] at step_
          exact step_.symm.trans isOpen
        exact (working.others other wasOpen).resolve_right nofun
  cases ran
  by_cases connected : attempt.outcome = .connected
  · rw [if_pos connected]
    exact ⟨_, rfl, works _ rfl rfl rfl⟩
  · rw [if_neg connected]
    exact ⟨_, rfl, works _ rfl rfl rfl⟩

theorem Working.failed {temp : Nat}
    (working : link.Working current before after (.failed temp))
    (exchanged : ∀ new, link.routines.set index new = before ++ new :: after)
    (ran : link.proceed kind index attempt setup (.failed temp) = some next) :
    next.Working current before after (.dropping temp) := by
  obtain ⟨shut, empty⟩ := working.alone rfl
  have isOpen := (working.temps temp rfl).1
  obtain ⟨closed, closing, same⟩ := Option.map_eq_some_iff.mp ran
  subst same
  have touched : Touched temp link closed :=
    call_touched link closed temp _
      (fun call done returned => (LinkCall.closeSocket_returned call done returned).settles) closing
  have tempShut := closeSocket_openAt link closed temp closing
  rcases touched.settles with ⟨_, handles⟩ | ⟨_, globals, handles⟩
  · rw [handles, isOpen] at tempShut
    contradiction
  · have pending : closed.globals.pending = [link.globals.timers] := by
      rw [globals]
      change link.globals.pending ++ [link.globals.timers] = _
      rw [empty, List.nil_append]
    have stillShut : closed.openAt current = false := by
      rw [handles, shut, Bool.and_false]
    constructor
    · exact touched.current.trans working.pointed
    · change current < closed.objects.length
      rw [touched.length]
      exact working.present
    · change closed.routines.set index _ = _
      rw [touched.routines]
      exact exchanged (.dropping temp)
    · exact working.quiet
    · change (if closed.openAt current then 1 else 0) + closed.globals.pending.length + 0 = 1
      rw [stillShut, pending]
      rfl
    · intro _
      change closed.globals.reconnect = true
      rw [globals]
      rfl
    · nofun
    · intro other otherOpen
      change closed.openAt other = true at otherOpen
      rw [handles, Bool.and_eq_true, decide_eq_true_iff] at otherOpen
      apply Or.inl
      apply (working.others other otherOpen.2).resolve_right
      intro isTemp
      exact otherOpen.1 (Option.some.inj isTemp).symm

/-- The new object is in the pointer, open or with a timer pending again. -/
theorem Working.exchanged {old temp : Nat} {done : ReconnectLink} {new : Routine}
    (working : link.Working current before after (.connected temp))
    (exchanged : ∀ new, link.routines.set index new = before ++ new :: after)
    (settled : new.attempting = false)
    (ran : link.exchange kind old temp setup = some done) :
    (done.atRoutine index new).Working temp before after new := by
  obtain ⟨shut, empty⟩ := working.alone rfl
  have isOpen := (working.temps temp rfl).1
  have touched := exchange_touched kind link done old temp setup ran
  obtain ⟨reads, held⟩ := new.quiet settled
  constructor
  · exact touched.current
  · change temp < done.objects.length
    rw [touched.length]
    exact openAt_present isOpen
  · change done.routines.set index _ = _
    rw [touched.routines]
    exact exchanged new
  · exact working.quiet
  · change (if done.openAt temp then 1 else 0) + done.globals.pending.length + _ = 1
    rw [settled]
    rcases touched.settles with ⟨globals, handles⟩ | ⟨_, globals, handles⟩
    · rw [handles, show openAt { link with current := some temp, globals := { link.globals with
        reconnect := false, useServer := true } } temp = true from isOpen, globals, empty]
      rfl
    · rw [handles, decide_eq_false (not_not_intro rfl), Bool.false_and, globals]
      change 0 + (link.globals.pending ++ [_]).length + 0 = 1
      rw [empty]
      rfl
  · intro some_
    rw [reads] at some_
    change 0 < done.globals.pending.length + 0 at some_
    change done.globals.reconnect = true
    rcases touched.settles with ⟨globals, _⟩ | ⟨_, globals, _⟩
    · rw [globals, empty] at some_
      cases some_
    · rw [globals]
      rfl
  · rw [held]
    nofun
  · intro other otherOpen
    have wasOpen : link.openAt other = true := touched.open_before other otherOpen
    apply Or.inl
    rcases working.others other wasOpen with isCurrent | isTemp
    · rw [isCurrent, shut] at wasOpen
      contradiction
    · exact (Option.some.inj isTemp).symm

theorem Working.connected {temp : Nat}
    (working : link.Working current before after (.connected temp))
    (exchanged : ∀ new, link.routines.set index new = before ++ new :: after)
    (ran : link.proceed kind index attempt setup (.connected temp) = some next) :
    next.Tended temp := by
  obtain ⟨old, _, exchanging⟩ := Option.bind_eq_some_iff.mp ran
  obtain ⟨done, entered, same⟩ := Option.map_eq_some_iff.mp exchanging
  subst same
  split
  · exact (working.exchanged exchanged rfl entered).tended
  · exact (working.exchanged exchanged rfl entered).tended

theorem Tended.dropping {object : Nat} (tended : link.Tended current)
    (whole : link.routines = before ++ .dropping object :: after)
    (exchanged : ∀ new, link.routines.set index new = before ++ new :: after)
    (ran : link.proceed kind index attempt setup (.dropping object) = some next) :
    next.Tended current := by
  obtain ⟨released, releasing, same⟩ := Option.map_eq_some_iff.mp ran
  subst same
  have still := release_still link released object releasing
  have routines : (released.atRoutine index .finished).routines =
      before ++ .finished :: after := by
    change released.routines.set index _ = _
    rw [still.routines]
    exact exchanged .finished
  have counts : ∀ count : Routine → Bool, count (.dropping object) = count .finished →
      (released.atRoutine index .finished).routines.countP count =
        link.routines.countP count := by
    intro count same
    rw [routines, whole, List.countP_append, List.countP_append, List.countP_cons,
      List.countP_cons, same]
  have sameTemps : (released.atRoutine index .finished).temps = link.temps := by
    rw [ReconnectLink.temps, ReconnectLink.temps, routines, whole, List.filterMap_append,
      List.filterMap_append, List.filterMap_cons_none rfl, List.filterMap_cons_none rfl]
  apply tended.same (released.atRoutine index .finished) still.current still.length _ _
    still.handles (counts _ rfl) (counts _ rfl) sameTemps
  · intro temp member
    exact still.idle temp (tended.temps temp member).2
  · exact congrArg LinkGlobals.pending still.globals
  · exact congrArg LinkGlobals.reconnect still.globals

end Proceeding

/-! ### Every event -/

/-- `socket()` succeeds in the attempts that are made. -/
def SocketMade (link : ReconnectLink) : LinkEvent → Prop
  | .startUp attempt _ => attempt.outcome ≠ .noSocket
  | .routine index attempt _ =>
      link.routines[index]? = some .connecting → attempt.outcome ≠ .noSocket
  | _ => True

def Down (link : ReconnectLink) : Prop :=
  ∃ index object, link.current = some index ∧ link.objects[index]? = some object ∧
    object.socket.handleOpen = false

/-- When the link is down and no timer routine runs, a timer is pending. -/
def Retried (link : ReconnectLink) : Prop :=
  link.Down → (∀ routine ∈ link.routines, routine = .finished) → link.globals.pending ≠ []

theorem Tended.retried {link : ReconnectLink} {current : Nat} (tended : link.Tended current) :
    link.Retried := by
  rintro ⟨index, object, pointed, found, shut⟩ finished empty
  have isCurrent : index = current := Option.some.inj (pointed.symm.trans tended.pointed)
  rw [isCurrent] at found
  have currentShut : link.openAt current = false := by
    rw [openAt, found, Option.any_some]
    exact shut
  have resting : ∀ routine ∈ link.routines, routine.attempting = false := by
    intro routine member
    rw [finished routine member]
    rfl
  have once := tended.once
  rw [currentShut, if_neg nofun, empty, (quiet_counts link.routines resting).1] at once
  exact absurd once nofun

theorem Tended.current_notTemp {link : ReconnectLink} {current : Nat}
    (tended : link.Tended current) : current ∉ link.temps := by
  intro member
  have isOpen := (tended.temps current member).1
  obtain ⟨routine, present, held⟩ := List.mem_filterMap.mp member
  have attempts : routine.attempting = true := by
    by_contra settled
    rw [(routine.quiet (Bool.eq_false_iff.mpr settled)).2] at held
    contradiction
  have working : 0 < link.routines.countP Routine.attempting :=
    List.countP_pos_iff.mpr ⟨routine, present, attempts⟩
  have once := tended.once
  rw [isOpen, if_pos rfl] at once
  omega

theorem enrol_tended (kind : LinkKind) (attempt : Attempt)
    (made : attempt.outcome ≠ .noSocket) : (start.enrol kind attempt).Tended 0 := by
  have opened : ∀ index, (start.enrol kind attempt).openAt index =
      if index = 0 then true else start.openAt index :=
    allocate_openAt kind start attempt made
  have pending : (start.enrol kind attempt).globals.pending = [] :=
    allocate_pending kind start attempt
  constructor
  · rfl
  · exact Nat.zero_lt_succ 0
  · rw [opened, if_pos rfl, if_pos rfl, pending]
    rfl
  · rw [pending]
    intro impossible
    cases impossible
  · nofun
  · intro index isOpen
    apply Or.inl
    by_contra other
    rw [opened, if_neg other] at isOpen
    cases isOpen

theorem startUp_tended (kind : LinkKind) (next : ReconnectLink) (attempt : Attempt)
    (setup : Setup) (made : attempt.outcome ≠ .noSocket)
    (ran : start.startUp kind attempt setup = some next) : next.Tended 0 := by
  have enrolled := enrol_tended kind attempt made
  rw [startUp, if_pos ⟨rfl, rfl⟩] at ran
  split at ran
  · exact enrolled.touched (call_touched _ next 0 _
      (fun call done => LinkCall.initializeSocket_settles kind call done setup) ran)
      List.not_mem_nil
  · exact enrolled.touched (call_touched _ next 0 _
      (fun call done returned => (LinkCall.closeSocket_returned call done returned).settles) ran)
      List.not_mem_nil

theorem Tended.fire {link : ReconnectLink} {current timer : Nat} (tended : link.Tended current)
    (pending : timer ∈ link.globals.pending) :
    Tended { link with
      globals := { link.globals with pending := link.globals.pending.erase timer }
      routines := link.routines ++ [.fired] } current := by
  have shorter := List.length_erase_of_mem pending
  have some_ := List.length_pos_of_mem pending
  have once := tended.once
  constructor
  · exact tended.pointed
  · exact tended.present
  · change (if link.openAt current then 1 else 0) +
      (link.globals.pending.erase timer).length +
        (link.routines ++ [Routine.fired]).countP Routine.attempting = 1
    rw [List.countP_append, shorter, List.countP_singleton,
      if_pos (show Routine.fired.attempting = true from rfl)]
    omega
  · intro _
    apply tended.flagged
    omega
  · intro temp member
    apply tended.temps temp
    change temp ∈ (link.routines ++ [Routine.fired]).filterMap Routine.temp at member
    rw [List.filterMap_append] at member
    exact (List.mem_append.mp member).resolve_right List.not_mem_nil
  · intro index isOpen
    change index = current ∨ index ∈ (link.routines ++ [Routine.fired]).filterMap Routine.temp
    rw [List.filterMap_append, List.mem_append, ← or_assoc]
    exact Or.inl (tended.others index isOpen)

theorem Tended.step {kind : LinkKind} {link next : ReconnectLink} {current : Nat}
    (tended : link.Tended current) (event : LinkEvent) (made : link.SocketMade event)
    (stepped : link.step kind event = some next) : ∃ index, next.Tended index := by
  cases event with
  | startUp attempt setup =>
      simp only [ReconnectLink.step, startUp, tended.pointed] at stepped
      rw [if_neg (fun unstarted => nomatch unstarted.1)] at stepped
      cases stepped
  | fire timer =>
      obtain ⟨pending, fired⟩ := Option.ite_none_right_eq_some.mp stepped
      cases fired
      exact ⟨current, tended.fire pending⟩
  | routine index attempt setup =>
      obtain ⟨routine, found, ran⟩ := Option.bind_eq_some_iff.mp stepped
      obtain ⟨before, after, whole, exchanged⟩ := set_around found
      cases routine with
      | fired => exact ⟨current, ((tended.working whole rfl).fired exchanged ran).tended⟩
      | checking => exact ⟨current, ((tended.working whole rfl).checking exchanged ran).tended⟩
      | connecting =>
          obtain ⟨_, _, working⟩ :=
            (tended.working whole rfl).connecting exchanged (made found) ran
          exact ⟨current, working.tended⟩
      | failed temp => exact ⟨current, ((tended.working whole rfl).failed exchanged ran).tended⟩
      | connected temp =>
          exact ⟨temp, (tended.working whole rfl).connected exchanged ran⟩
      | dropping object => exact ⟨current, tended.dropping whole exchanged ran⟩
      | finished => cases ran
  | io index event =>
      have ran : link.call index (fun call => call.complete kind event) = some next := stepped
      have touched := call_touched link next index _
        (fun call done ran => (LinkCall.complete_returns kind call done event ran).settles) ran
      refine ⟨current, tended.touched touched ?_⟩
      intro isTemp
      obtain ⟨object, done, found, returned, _⟩ := call_cases link next index _ ran
      have idle : object.socket.outstanding = 0 := (tended.temps index isTemp).2 object found
      exact LinkCall.complete_outstanding kind _ done event returned idle
  | send sending =>
      obtain ⟨index, pointed, ran⟩ := Option.bind_eq_some_iff.mp stepped
      have isCurrent : index = current := Option.some.inj (pointed.symm.trans tended.pointed)
      have touched : Touched index link next := call_touched link next index _
        (fun call done returned => (LinkCall.send_returned kind sending call done returned).settles)
        ran
      exact ⟨current, tended.touched touched (isCurrent ▸ tended.current_notTemp)⟩

/-- While every `socket()` succeeds, a link that is down is retried. -/
theorem retried_throughout (kind : LinkKind) (events : List LinkEvent)
    (made : (machine kind).Guarded SocketMade start events) :
    (machine kind).Throughout Retried start events := by
  apply (machine kind).throughout_of_guarded
    (fun link => link = start ∨ ∃ current, link.Tended current) Retried SocketMade _ _
    events start (Or.inl rfl) made
  · intro link event next invariant atStep stepped
    apply Or.inr
    rcases invariant with unstarted | ⟨current, tended⟩
    · rw [unstarted] at stepped atStep
      cases event with
      | startUp attempt setup => exact ⟨0, startUp_tended kind next attempt setup atStep stepped⟩
      | fire timer => cases stepped
      | routine index attempt setup => cases stepped
      | io index event => cases stepped
      | send sending => cases stepped
    · exact tended.step event atStep stepped
  · intro link invariant
    rcases invariant with unstarted | ⟨current, tended⟩
    · rintro ⟨index, object, pointed, _⟩
      rw [unstarted] at pointed
      cases pointed
    · exact tended.retried

def plainSetup : Setup :=
  ⟨true, ⟨1, fun _ => 0, true⟩, ⟨⟨0, [0], by decide⟩, true⟩, ⟨⟨1, [0], by decide⟩, true⟩⟩

def plainAttempt (outcome : ConnectOutcome) : Attempt := ⟨outcome, 0, fun _ => 0⟩

def refusedRun : List LinkEvent :=
  [.startUp (plainAttempt .connected) plainSetup, .io 0 (.received [] plainSetup.recv),
    .fire 0, .routine 0 (plainAttempt .refused) plainSetup,
    .routine 0 (plainAttempt .refused) plainSetup,
    .routine 0 (plainAttempt .refused) plainSetup,
    .routine 0 (plainAttempt .refused) plainSetup,
    .routine 0 (plainAttempt .refused) plainSetup]

/-- The run goes to its end, where the link is down and its second timer pending. -/
theorem refused_link_retried :
    (machine .ip).Throughout Retried start refusedRun ∧
      ((machine .ip).run start refusedRun).map (fun link =>
        (link.openAt 0, link.routines, link.globals.pending)) =
        some (false, [.finished], [1]) := by
  have refused : ∀ (link : ReconnectLink) (index : Nat),
      link.SocketMade (.routine index (plainAttempt .refused) plainSetup) :=
    fun _ _ _ => nofun
  constructor
  · apply retried_throughout
    exact fun _ _ => ⟨nofun, fun _ _ => ⟨trivial, fun _ _ => ⟨trivial,
      fun _ _ => ⟨refused _ _, fun _ _ => ⟨refused _ _, fun _ _ => ⟨refused _ _,
        fun _ _ => ⟨refused _ _, fun _ _ => ⟨refused _ _, trivial⟩⟩⟩⟩⟩⟩⟩⟩
  · rfl

/-- The first attempt is refused; in the second one `socket()` fails, so there
is no handle to close and no timer. -/
theorem failed_socket_ends_retries :
    ¬ ∀ (kind : LinkKind) (events : List LinkEvent),
      (machine kind).Throughout Retried start events := by
  intro claimed
  have run := claimed .ip
    [.startUp (plainAttempt .refused) plainSetup, .fire 0,
      .routine 0 (plainAttempt .noSocket) plainSetup,
      .routine 0 (plainAttempt .noSocket) plainSetup,
      .routine 0 (plainAttempt .noSocket) plainSetup,
      .routine 0 (plainAttempt .noSocket) plainSetup,
      .routine 0 (plainAttempt .noSocket) plainSetup]
  have final : Retried _ :=
    ((((((run.2 _ rfl).2 _ rfl).2 _ rfl).2 _ rfl).2 _ rfl).2 _ rfl).2 _ rfl
  have finished : ∀ routine ∈ [Routine.finished], routine = .finished :=
    fun routine member => List.mem_singleton.mp member
  exact final ⟨0, _, rfl, rfl, rfl⟩ finished rfl

end ReconnectLink

end AuthServer
