/-
How waiting connections get accepted.

Each server's listening socket has an event, which `RunEvent` waits for; its callback
resets the event and posts a packet to the completion port, and the worker thread that
takes the packet calls `accept` once.  Winsock sets the event when a connection comes in
while `FD_ACCEPT` is enabled, which disables it; `accept` enables it again, or sets the
event at once where more connections are waiting.  Neither `accept` on a waiting
connection nor `PostQueuedCompletionStatus` is taken to fail.  `arrived`, `accepted` and `aborted` are
history variables.  No interleaving forgets a connection, and left to themselves the
threads accept all that wait.
-/

import AuthServer.Lib.EventRuns
import AuthServer.Lib.Processes
import Mathlib.Algebra.BigOperators.Group.Finset.Basic
import Mathlib.Data.List.Nodup
import Mathlib.Logic.Function.Basic

set_option autoImplicit false

namespace AuthServer

open Processes

def maximumWaitObjects : Nat := 64

/-- The events that `RunEvent` waits for; the servers are numbered. -/
inductive EventHandle where
  | terminateEvent
  | acceptEvent (server : Nat)
  deriving DecidableEq, Repr

inductive EventObject where
  | topTimer
  | server (number : Nat)
  deriving DecidableEq, Repr

def EventHandle.object : EventHandle → EventObject
  | .terminateEvent => .topTimer
  | .acceptEvent server => .server server

/-- `CJob`, as far as events go. -/
structure JobEvents where
  m_handles : List EventHandle
  m_objects : List EventObject
  m_terminating : Bool

namespace JobEvents

def create : JobEvents := ⟨[.terminateEvent], [.topTimer], false⟩

def pushEvent (job : JobEvents) (handle : EventHandle) (object : EventObject) :
    Bool × JobEvents :=
  if job.m_terminating then (false, job)
  else if job.m_handles.length ≥ maximumWaitObjects then (false, job)
  else
    (true, { job with
      m_handles := job.m_handles ++ [handle]
      m_objects := job.m_objects ++ [object] })

/-- `Create` of the servers one after another, which may fail before it registers. -/
def listen (job : JobEvents) (number : Nat) : List Bool → JobEvents
  | [] => job
  | created :: rest =>
      let next :=
        if created then (job.pushEvent (.acceptEvent number) (.server number)).2 else job
      next.listen (number + 1) rest

end JobEvents

structure Listener where
  backlog : Nat
  enabled : Bool
  signaled : Bool
  arrived : Nat
  accepted : Nat
  aborted : Nat

/-- The points of `RunEvent`: in `WaitForMultipleObjects`, in a server's callback before
and behind `WSAResetEvent`, and after its return. -/
inductive RunEventPoint where
  | waiting
  | callback (server : Nat)
  | posting (server : Nat)
  | returned
  deriving DecidableEq, Repr

/-- A worker waits for a packet, is about to call `accept`, or makes a connection of what it
has got. -/
inductive AcceptWorker where
  | idle
  | accepting (server : Nat)
  | serving (server : Nat)
  deriving DecidableEq, Repr

structure AcceptSystem where
  job : JobEvents
  terminateSignaled : Bool
  listeners : Nat → Listener
  runEvent : RunEventPoint
  packets : List Nat
  workers : List AcceptWorker

inductive ListenEvent where
  | connect (server : Nat)
  | abort (server : Nat)
  | setTerminating
  | setTerminateEvent
  | wake
  | reset
  | post
  | take (i : Nat)
  | accept (i : Nat)
  | serve (i : Nat)
  deriving DecidableEq, Repr

namespace Listener

def create : Listener := ⟨0, true, false, 0, 0, 0⟩

def record (listener : Listener) : Listener :=
  { listener with enabled := false, signaled := true }

def connect (listener : Listener) : Listener :=
  let waiting := { listener with
    backlog := listener.backlog + 1
    arrived := listener.arrived + 1 }
  if listener.enabled then waiting.record else waiting

/-- `accept`, which is taken to return a connection whenever one waits; it enables
`FD_ACCEPT` even if it returns none. -/
def accept (listener : Listener) : Listener :=
  let rest := { listener with
    backlog := listener.backlog - 1
    accepted := if listener.backlog > 0 then listener.accepted + 1 else listener.accepted
    enabled := true }
  if rest.backlog > 0 then rest.record else rest

end Listener

theorem Listener.accept_counted (listener : Listener)
    (counted : listener.arrived = listener.accepted + listener.aborted + listener.backlog) :
    listener.accept.arrived =
      listener.accept.accepted + listener.accept.aborted + listener.accept.backlog := by
  rw [Listener.accept]
  by_cases waiting : listener.backlog > 0
  · simp only [if_pos waiting]
    split
    · dsimp only [Listener.record]
      omega
    · dsimp only
      omega
  · simp only [if_neg waiting]
    split
    · dsimp only [Listener.record]
      omega
    · dsimp only
      omega

namespace AcceptSystem

def setListener (system : AcceptSystem) (server : Nat) (listener : Listener) : AcceptSystem :=
  { system with listeners := Function.update system.listeners server listener }

def goto (system : AcceptSystem) (i : Nat) (worker : AcceptWorker) : AcceptSystem :=
  { system with workers := system.workers.set i worker }

def isSignaled (system : AcceptSystem) : EventHandle → Bool
  | .terminateEvent => system.terminateSignaled
  | .acceptEvent server => (system.listeners server).signaled

/-- `WaitForMultipleObjects` returns the least index of a signaled event. -/
def waitResult (system : AcceptSystem) : Option Nat :=
  system.job.m_handles.findIdx? system.isSignaled

def step (system : AcceptSystem) : ListenEvent → Option AcceptSystem
  | .connect server =>
      if .acceptEvent server ∈ system.job.m_handles then
        some (system.setListener server (system.listeners server).connect)
      else none
  | .abort server =>
      let listener := system.listeners server
      if listener.backlog > 0 then
        some (system.setListener server { listener with
          backlog := listener.backlog - 1
          aborted := listener.aborted + 1 })
      else none
  | .setTerminating => some { system with job := { system.job with m_terminating := true } }
  | .setTerminateEvent =>
      if system.job.m_terminating then some { system with terminateSignaled := true } else none
  | .wake =>
      match system.runEvent, system.waitResult with
      | .waiting, some waitResult =>
          if system.job.m_terminating then some { system with runEvent := .returned }
          else
            match system.job.m_objects[waitResult]? with
            | some (.server server) => some { system with runEvent := .callback server }
            | some .topTimer => some system
            | none => none
      | _, _ => none
  | .reset =>
      match system.runEvent with
      | .callback server =>
          some ({ system with runEvent := .posting server }.setListener server
            { system.listeners server with signaled := false })
      | _ => none
  | .post =>
      match system.runEvent with
      | .posting server =>
          some { system with runEvent := .waiting, packets := system.packets ++ [server] }
      | _ => none
  | .take i =>
      match system.workers[i]?, system.packets with
      | some .idle, server :: rest =>
          some ({ system with packets := rest }.goto i (.accepting server))
      | _, _ => none
  | .accept i =>
      match system.workers[i]? with
      | some (.accepting server) =>
          let listener := system.listeners server
          some ((system.setListener server listener.accept).goto i
            (if listener.backlog > 0 then .serving server else .idle))
      | _ => none
  | .serve i =>
      match system.workers[i]? with
      | some (.serving _) => some (system.goto i .idle)
      | _ => none

def machine : EventRuns.Machine AcceptSystem ListenEvent := ⟨step⟩

def start (created : List Bool) (workers : Nat) : AcceptSystem where
  job := JobEvents.create.listen 0 created
  terminateSignaled := false
  listeners := fun _ => .create
  runEvent := .waiting
  packets := []
  workers := List.replicate workers .idle

/-! ### One wake-up at a time -/

def postToken (server : Nat) (point : RunEventPoint) : Nat :=
  if point = .posting server then 1 else 0

def acceptToken (server : Nat) (worker : AcceptWorker) : Nat :=
  if worker = .accepting server then 1 else 0

def tokens (system : AcceptSystem) (server : Nat) : Nat :=
  (system.listeners server).signaled.toNat + postToken server system.runEvent +
    system.packets.count server + total (acceptToken server) system.workers

@[simp] theorem setListener_same (system : AcceptSystem) (server : Nat) (listener : Listener) :
    (system.setListener server listener).listeners server = listener := by
  simp only [setListener, Function.update_self]

theorem setListener_other (system : AcceptSystem) (server other : Nat) (listener : Listener)
    (apart : other ≠ server) :
    (system.setListener server listener).listeners other = system.listeners other := by
  simp only [setListener, Function.update_of_ne apart]

structure Registered (job : JobEvents) (servers : List Nat) : Prop where
  handles : job.m_handles = .terminateEvent :: servers.map .acceptEvent
  objects : job.m_objects = .topTimer :: servers.map .server

structure Awake (servers : List Nat) (system : AcceptSystem) : Prop where
  registered : Registered system.job servers
  terminating : system.terminateSignaled = true → system.job.m_terminating = true
  token : ∀ server, system.tokens server = if (system.listeners server).enabled then 0 else 1
  level : ∀ server, (system.listeners server).enabled = true →
    (system.listeners server).backlog = 0
  held : ∀ server, system.runEvent = .callback server →
    (system.listeners server).signaled = true
  counted : ∀ server, (system.listeners server).arrived =
    (system.listeners server).accepted + (system.listeners server).aborted +
      (system.listeners server).backlog
  returned : system.runEvent = .returned → system.job.m_terminating = true
  untouched : ∀ server, server ∉ servers → system.listeners server = .create

theorem Registered.object {job : JobEvents} {servers : List Nat}
    (registered : Registered job servers) (i : Nat) :
    job.m_objects[i]? = job.m_handles[i]?.map EventHandle.object := by
  have same : job.m_objects = job.m_handles.map EventHandle.object := by
    rw [registered.handles, registered.objects, List.map_cons, List.map_map]
    rfl
  rw [same, List.getElem?_map]

theorem Registered.listens {job : JobEvents} {servers : List Nat}
    (registered : Registered job servers) (server : Nat)
    (listens : EventHandle.acceptEvent server ∈ job.m_handles) : server ∈ servers := by
  rw [registered.handles] at listens
  rcases List.mem_cons.mp listens with isTerminate | isAccept
  · cases isTerminate
  · obtain ⟨same, member, equal⟩ := List.mem_map.mp isAccept
    cases equal
    exact member

theorem listen_registered (created : List Bool) (job : JobEvents) (number : Nat)
    (servers : List Nat) (registered : Registered job servers) :
    ∃ more, Registered (job.listen number created) (servers ++ more) ∧
      (job.listen number created).m_terminating = job.m_terminating := by
  induction created generalizing job number servers with
  | nil => exact ⟨[], by rw [List.append_nil]; exact registered, rfl⟩
  | cons first rest ih =>
      rw [JobEvents.listen]
      by_cases pushed : first = true ∧ ¬ job.m_terminating = true ∧
          ¬ job.m_handles.length ≥ maximumWaitObjects
      · have pushes : (if first = true then
            (job.pushEvent (.acceptEvent number) (.server number)).2 else job) =
            { job with
              m_handles := job.m_handles ++ [.acceptEvent number]
              m_objects := job.m_objects ++ [.server number] } := by
          rw [if_pos pushed.1, JobEvents.pushEvent, if_neg pushed.2.1, if_neg pushed.2.2]
        have next : Registered { job with
            m_handles := job.m_handles ++ [.acceptEvent number]
            m_objects := job.m_objects ++ [.server number] } (servers ++ [number]) := by
          constructor
          · rw [List.map_append, registered.handles]
            rfl
          · rw [List.map_append, registered.objects]
            rfl
        obtain ⟨more, after, same⟩ := ih _ (number + 1) (servers ++ [number]) next
        rw [pushes]
        refine ⟨number :: more, ?_, same⟩
        rw [List.append_cons servers]
        exact after
      · have stays : (if first = true then
            (job.pushEvent (.acceptEvent number) (.server number)).2 else job) = job := by
          split
          · rename_i created
            rw [JobEvents.pushEvent]
            split
            · rfl
            · rename_i going
              split
              · rfl
              · rename_i room
                exact absurd ⟨created, going, room⟩ pushed
          · rfl
        rw [stays]
        exact ih job (number + 1) servers registered

theorem start_awake (created : List Bool) (workers : Nat) :
    ∃ servers, Awake servers (start created workers) := by
  obtain ⟨servers, registered, going⟩ := listen_registered created JobEvents.create 0 []
    ⟨rfl, rfl⟩
  refine ⟨servers, registered, nofun, fun server => ?_, fun _ _ => rfl, nofun, fun _ => rfl,
    nofun, fun _ _ => rfl⟩
  have none_ : total (acceptToken server) (List.replicate workers AcceptWorker.idle) = 0 :=
    total_replicate _ workers AcceptWorker.idle rfl
  change 0 + 0 + 0 + total (acceptToken server) (List.replicate workers AcceptWorker.idle) = 0
  rw [none_]

section Steps

variable {servers : List Nat} {system : AcceptSystem} (awake : Awake servers system)

include awake

theorem Awake.listens (server : Nat) (used : system.listeners server ≠ .create) :
    server ∈ servers :=
  Decidable.of_not_not fun foreign => used (awake.untouched server foreign)

/-- Where `FD_ACCEPT` is disabled, the one wake-up is somewhere. -/
theorem Awake.disabled (server : Nat) (some_ : 0 < system.tokens server) :
    (system.listeners server).enabled = false ∧ system.tokens server = 1 := by
  have token := awake.token server
  cases enabled : (system.listeners server).enabled with
  | true =>
      rw [enabled, if_pos rfl] at token
      omega
  | false =>
      rw [enabled, if_neg Bool.false_ne_true] at token
      exact ⟨rfl, token⟩

theorem Awake.change (next : AcceptSystem) (server : Nat) (listener : Listener)
    (job : next.job = system.job) (terminate : next.terminateSignaled = system.terminateSignaled)
    (listeners : next.listeners = Function.update system.listeners server listener)
    (elsewhere : ∀ other, other ≠ server → next.tokens other = system.tokens other)
    (token : next.tokens server = if listener.enabled then 0 else 1)
    (level : listener.enabled = true → listener.backlog = 0)
    (counted : listener.arrived = listener.accepted + listener.aborted + listener.backlog)
    (held : ∀ other, next.runEvent = .callback other → (next.listeners other).signaled = true)
    (returned : next.runEvent = .returned → next.job.m_terminating = true)
    (listens : server ∈ servers) : Awake servers next where
  registered := job ▸ awake.registered
  terminating := by
    rw [terminate, job]
    exact awake.terminating
  token other := by
    by_cases same : other = server
    · rw [same, token, listeners, Function.update_self]
    · rw [elsewhere other same, awake.token, listeners, Function.update_of_ne same]
  level other := by
    rw [listeners]
    by_cases same : other = server
    · rw [same, Function.update_self]
      exact level
    · rw [Function.update_of_ne same]
      exact awake.level other
  counted other := by
    rw [listeners]
    by_cases same : other = server
    · rw [same, Function.update_self]
      exact counted
    · rw [Function.update_of_ne same]
      exact awake.counted other
  held := held
  returned := returned
  untouched other foreign := by
    have apart : other ≠ server := by
      intro same
      exact foreign (same.symm ▸ listens)
    rw [listeners, Function.update_of_ne apart]
    exact awake.untouched other foreign

theorem Awake.setListener (server : Nat) (listener : Listener)
    (token : (system.setListener server listener).tokens server =
      if listener.enabled then 0 else 1)
    (level : listener.enabled = true → listener.backlog = 0)
    (held : (system.listeners server).signaled = true → listener.signaled = true)
    (counted : listener.arrived = listener.accepted + listener.aborted + listener.backlog)
    (listens : server ∈ servers) : Awake servers (system.setListener server listener) := by
  refine awake.change _ server listener rfl rfl rfl (fun other same => ?_) token level counted
    (fun other at_ => ?_) awake.returned listens
  · rw [tokens, setListener_other system server other listener same]
    rfl
  · have before := awake.held other at_
    by_cases same : other = server
    · subst same
      rw [setListener_same]
      exact held before
    · rw [setListener_other system server other listener same]
      exact before

theorem Awake.connect (server : Nat) (listens : server ∈ servers) :
    Awake servers (system.setListener server (system.listeners server).connect) := by
  have token := awake.token server
  have counted := awake.counted server
  cases enabled : (system.listeners server).enabled with
  | true =>
      have connected : (system.listeners server).connect =
          { system.listeners server with
            backlog := (system.listeners server).backlog + 1
            arrived := (system.listeners server).arrived + 1
            enabled := false
            signaled := true } := by
        rw [Listener.connect, if_pos enabled]
        rfl
      rw [enabled, if_pos rfl, tokens] at token
      rw [connected]
      refine awake.setListener server _ ?_ nofun (fun _ => rfl) ?_ listens
      · rw [tokens, setListener_same]
        change true.toNat + postToken server system.runEvent + system.packets.count server +
          total (acceptToken server) system.workers = 1
        rw [Bool.toNat_true]
        omega
      · dsimp only
        omega
  | false =>
      have connected : (system.listeners server).connect =
          { system.listeners server with
            backlog := (system.listeners server).backlog + 1
            arrived := (system.listeners server).arrived + 1 } := by
        rw [Listener.connect, if_neg (enabled ▸ Bool.false_ne_true)]
      rw [connected]
      refine awake.setListener server _ ?_ (fun on => ?_) id ?_ listens
      · rw [tokens, setListener_same]
        exact token
      · exact absurd (enabled.symm.trans on) Bool.false_ne_true
      · dsimp only
        omega

theorem Awake.abort (server : Nat) (waiting : (system.listeners server).backlog > 0) :
    Awake servers (system.setListener server { system.listeners server with
      backlog := (system.listeners server).backlog - 1
      aborted := (system.listeners server).aborted + 1 }) := by
  have counted := awake.counted server
  refine awake.setListener server _ ?_ (fun on => ?_) id ?_
    (awake.listens server fun fresh => by rw [fresh] at waiting; cases waiting)
  · rw [tokens, setListener_same]
    exact awake.token server
  · have none_ := awake.level server on
    omega
  · dsimp only
    omega

theorem Awake.wake (server : Nat) (at_ : system.runEvent = .waiting)
    (signaled : (system.listeners server).signaled = true) :
    Awake servers { system with runEvent := .callback server } where
  registered := awake.registered
  terminating := awake.terminating
  level := awake.level
  counted := awake.counted
  untouched := awake.untouched
  returned := nofun
  token other := by
    have token := awake.token other
    rw [tokens, at_] at token
    exact token
  held other isCallback := by
    cases isCallback
    exact signaled

theorem Awake.reset (server : Nat) (at_ : system.runEvent = .callback server) :
    Awake servers ({ system with runEvent := .posting server }.setListener server
      { system.listeners server with signaled := false }) := by
  have held := awake.held server at_
  have away (other : Nat) : postToken other system.runEvent = 0 := by
    rw [at_]
    rfl
  refine awake.change _ server { system.listeners server with signaled := false } rfl rfl rfl
    (fun other same => ?_) ?_ (awake.level server) (awake.counted server) nofun nofun
    (awake.listens server fun fresh => by rw [fresh] at held; cases held)
  · have none_ : postToken other (.posting server) = 0 :=
      if_neg fun equal => same (RunEventPoint.posting.inj equal).symm
    rw [tokens, setListener_other _ server other _ same, tokens, away]
    change _ + postToken other (.posting server) + _ + _ = _
    rw [none_]
    rfl
  · have token := awake.token server
    have one : postToken server (.posting server) = 1 := if_pos rfl
    rw [tokens, held, away] at token
    rw [tokens, setListener_same]
    change 0 + postToken server (.posting server) + system.packets.count server +
      total (acceptToken server) system.workers = if (system.listeners server).enabled then 0 else 1
    rw [one, ← token]
    rfl

theorem Awake.post (server : Nat) (at_ : system.runEvent = .posting server) :
    Awake servers { system with runEvent := .waiting, packets := system.packets ++ [server] } where
  registered := awake.registered
  terminating := awake.terminating
  level := awake.level
  counted := awake.counted
  untouched := awake.untouched
  returned := nofun
  held := nofun
  token other := by
    have token := awake.token other
    rw [tokens, at_] at token
    change (system.listeners other).signaled.toNat + 0 + (system.packets ++ [server]).count other +
      total (acceptToken other) system.workers = _
    rw [List.count_append, ← token]
    by_cases same : other = server
    · have one : postToken other (.posting server) = 1 := if_pos (by rw [same])
      rw [one, same, List.count_singleton_self]
      omega
    · have none_ : postToken other (.posting server) = 0 :=
        if_neg fun equal => same (RunEventPoint.posting.inj equal).symm
      rw [none_, List.count_eq_zero.mpr fun member => same (List.mem_singleton.mp member)]
      rfl

theorem Awake.take (i server : Nat) (rest : List Nat) (here : system.workers[i]? = some .idle)
    (posted : system.packets = server :: rest) :
    Awake servers ({ system with packets := rest }.goto i (.accepting server)) where
  registered := awake.registered
  terminating := awake.terminating
  level := awake.level
  counted := awake.counted
  untouched := awake.untouched
  returned := awake.returned
  held := awake.held
  token other := by
    have token := awake.token other
    have moved := total_set (acceptToken other) system.workers i _ (.accepting server) here
    have idle : acceptToken other .idle = 0 := rfl
    rw [tokens, posted] at token
    change (system.listeners other).signaled.toNat + postToken other system.runEvent +
      rest.count other + total (acceptToken other) (system.workers.set i (.accepting server)) =
      if (system.listeners other).enabled then 0 else 1
    rw [← token]
    by_cases same : other = server
    · have one : acceptToken other (.accepting server) = 1 := if_pos (by rw [same])
      rw [same, List.count_cons_self]
      rw [same] at moved one idle
      omega
    · have none_ : acceptToken other (.accepting server) = 0 :=
        if_neg fun equal => same (AcceptWorker.accepting.inj equal).symm
      rw [List.count_cons_of_ne (Ne.symm same)]
      omega

theorem Awake.serve (i server : Nat) (here : system.workers[i]? = some (.serving server)) :
    Awake servers (system.goto i .idle) where
  registered := awake.registered
  terminating := awake.terminating
  level := awake.level
  counted := awake.counted
  untouched := awake.untouched
  returned := awake.returned
  held := awake.held
  token other := by
    have moved := total_set (acceptToken other) system.workers i _ .idle here
    have same : total (acceptToken other) (system.workers.set i .idle) =
        total (acceptToken other) system.workers := moved
    change _ + total (acceptToken other) (system.workers.set i .idle) = _
    rw [same]
    exact awake.token other

/-- Only one thread at a time gets to `accept` for a server. -/
theorem Awake.accept (i server : Nat) (here : system.workers[i]? = some (.accepting server))
    (after : AcceptWorker) (done : ∀ other, after ≠ .accepting other) :
    Awake servers ((system.setListener server (system.listeners server).accept).goto i after) := by
  have moved (other : Nat) :=
    total_set (acceptToken other) system.workers i _ after here
  have gone (other : Nat) : acceptToken other after = 0 := if_neg (done other)
  have one : acceptToken server (.accepting server) = 1 := if_pos rfl
  have share := le_total (acceptToken server) system.workers i _ here
  obtain ⟨disabled, single⟩ := awake.disabled server (by rw [tokens]; omega)
  have counted := awake.counted server
  have movedHere := moved server
  rw [gone, one] at movedHere
  rw [tokens] at single
  have off : (system.listeners server).signaled = false := by
    cases signaled : (system.listeners server).signaled with
    | false => rfl
    | true =>
        rw [signaled, Bool.toNat_true] at single
        omega
  rw [off, Bool.toNat_false] at single
  refine awake.change _ server (system.listeners server).accept rfl rfl rfl
    (fun other same => ?_) ?_ (fun on => ?_) ?_ (fun other at_ => ?_) awake.returned
    (awake.listens server fun fresh => by rw [fresh] at disabled; cases disabled)
  · have movedThere := moved other
    have apart : acceptToken other (.accepting server) = 0 :=
      if_neg fun equal => same (AcceptWorker.accepting.inj equal).symm
    rw [gone, apart] at movedThere
    have elsewhere := setListener_other system server other (system.listeners server).accept same
    change ((system.setListener server _).listeners other).signaled.toNat +
      postToken other system.runEvent + system.packets.count other +
      total (acceptToken other) (system.workers.set i after) = _
    rw [elsewhere, tokens]
    omega
  · change ((system.setListener server _).listeners server).signaled.toNat +
      postToken server system.runEvent + system.packets.count server +
      total (acceptToken server) (system.workers.set i after) = _
    rw [setListener_same, Listener.accept]
    dsimp only
    split
    · change true.toNat + _ + _ + _ = 1
      rw [Bool.toNat_true]
      omega
    · change (system.listeners server).signaled.toNat + _ + _ + _ = 0
      rw [off, Bool.toNat_false]
      omega
  · rw [Listener.accept] at on ⊢
    dsimp only at on ⊢
    split at on
    · cases on
    · rename_i empty
      rw [if_neg empty]
      dsimp only
      omega
  · exact Listener.accept_counted _ counted
  · have before := awake.held other at_
    by_cases same : other = server
    · rw [same, off] at before
      exact absurd before Bool.false_ne_true
    · have elsewhere := setListener_other system server other (system.listeners server).accept same
      exact (congrArg Listener.signaled elsewhere).trans before

end Steps

theorem waitResult_signaled (system : AcceptSystem) (i : Nat)
    (result : system.waitResult = some i) :
    ∃ handle, system.job.m_handles[i]? = some handle ∧ system.isSignaled handle = true := by
  obtain ⟨inside, signaled, _⟩ := List.findIdx?_eq_some_iff_getElem.mp result
  exact ⟨_, List.getElem?_eq_getElem inside, signaled⟩

theorem step_awake (servers : List Nat) (system : AcceptSystem) (event : ListenEvent)
    (next : AcceptSystem) (awake : Awake servers system)
    (stepped : machine.step system event = some next) : Awake servers next := by
  cases event with
  | connect server =>
      simp only [machine, step] at stepped
      split at stepped
      · rename_i listens
        exact Option.some.inj stepped ▸
          awake.connect server (awake.registered.listens server listens)
      · cases stepped
  | abort server =>
      simp only [machine, step] at stepped
      split at stepped
      · rename_i waiting
        exact Option.some.inj stepped ▸ awake.abort server waiting
      · cases stepped
  | setTerminating =>
      cases stepped
      exact ⟨⟨awake.registered.handles, awake.registered.objects⟩, fun _ => rfl, awake.token,
        awake.level, awake.held, awake.counted, fun _ => rfl, awake.untouched⟩
  | setTerminateEvent =>
      simp only [machine, step] at stepped
      split at stepped
      · rename_i terminating
        cases stepped
        exact ⟨awake.registered, fun _ => terminating, awake.token, awake.level, awake.held,
          awake.counted, awake.returned, awake.untouched⟩
      · cases stepped
  | wake =>
      simp only [machine, step] at stepped
      split at stepped
      · rename_i i at_ result
        split at stepped
        · rename_i terminating
          cases stepped
          refine ⟨awake.registered, awake.terminating, fun other => ?_, awake.level, nofun,
            awake.counted, fun _ => terminating, awake.untouched⟩
          have token := awake.token other
          rw [tokens, at_] at token
          exact token
        · split at stepped
          · rename_i server object
            obtain ⟨handle, there, signaled⟩ := waitResult_signaled system i result
            rw [awake.registered.object, there] at object
            cases handle with
            | terminateEvent => cases object
            | acceptEvent same =>
                cases object
                exact Option.some.inj stepped ▸ awake.wake server at_ signaled
          · exact Option.some.inj stepped ▸ awake
          · cases stepped
      · cases stepped
  | reset =>
      simp only [machine, step] at stepped
      split at stepped
      · rename_i server at_
        exact Option.some.inj stepped ▸ awake.reset server at_
      · cases stepped
  | post =>
      simp only [machine, step] at stepped
      split at stepped
      · rename_i server at_
        exact Option.some.inj stepped ▸ awake.post server at_
      · cases stepped
  | take i =>
      simp only [machine, step] at stepped
      split at stepped
      · rename_i server rest here posted
        exact Option.some.inj stepped ▸ awake.take i server rest here posted
      · cases stepped
  | accept i =>
      simp only [machine, step] at stepped
      split at stepped
      · rename_i server here
        refine Option.some.inj stepped ▸ awake.accept i server here _ fun other => ?_
        split
        · exact nofun
        · exact nofun
      · cases stepped
  | serve i =>
      simp only [machine, step] at stepped
      split at stepped
      · rename_i server here
        exact Option.some.inj stepped ▸ awake.serve i server here
      · cases stepped

/-- What the server threads see to between any two steps. -/
structure Heard (system : AcceptSystem) : Prop where
  /-- No connection waits without a wake-up that will come to `accept`. -/
  underway : ∀ server, 0 < (system.listeners server).backlog →
    (system.listeners server).signaled = true ∨ system.runEvent = .posting server ∨
      server ∈ system.packets ∨ AcceptWorker.accepting server ∈ system.workers
  /-- A packet and a thread at `accept` come one at a time. -/
  alone : ∀ server, system.packets.count server + total (acceptToken server) system.workers ≤ 1
  counted : ∀ server, (system.listeners server).arrived =
    (system.listeners server).accepted + (system.listeners server).aborted +
      (system.listeners server).backlog
  returned : system.runEvent = .returned → system.job.m_terminating = true

theorem acceptToken_mem (server : Nat) (workers : List AcceptWorker)
    (some_ : 0 < total (acceptToken server) workers) :
    AcceptWorker.accepting server ∈ workers := by
  induction workers with
  | nil => exact absurd some_ (Nat.lt_irrefl 0)
  | cons worker rest ih =>
      rw [total] at some_
      by_cases here : worker = .accepting server
      · rw [here]
        exact List.mem_cons_self
      · rw [acceptToken, if_neg here, Nat.zero_add] at some_
        exact List.mem_cons_of_mem _ (ih some_)

theorem Awake.one {servers : List Nat} {system : AcceptSystem} (awake : Awake servers system)
    (server : Nat) : system.tokens server ≤ 1 := by
  rw [awake.token]
  split
  · exact Nat.zero_le 1
  · exact Nat.le_refl 1

theorem Awake.heard {servers : List Nat} {system : AcceptSystem} (awake : Awake servers system) :
    Heard system where
  underway server waiting := by
    have token := awake.token server
    have disabled : ¬ (system.listeners server).enabled = true := by
      intro enabled
      have empty := awake.level server enabled
      omega
    rw [if_neg disabled, tokens] at token
    by_cases signaled : (system.listeners server).signaled = true
    · exact Or.inl signaled
    · by_cases posting : system.runEvent = .posting server
      · exact Or.inr (Or.inl posting)
      · by_cases posted : server ∈ system.packets
        · exact Or.inr (Or.inr (Or.inl posted))
        · refine Or.inr (Or.inr (Or.inr (acceptToken_mem server _ ?_)))
          rw [eq_false_of_ne_true signaled, Bool.toNat_false, postToken, if_neg posting,
            List.count_eq_zero.mpr posted] at token
          omega
  alone server := by
    have one := awake.one server
    rw [tokens] at one
    omega
  counted := awake.counted
  returned := awake.returned

/-- No connection is ever forgotten: with any servers and any number of worker threads, and
whatever clients come and go between the steps. -/
theorem heard_throughout (created : List Bool) (workers : Nat) (events : List ListenEvent) :
    machine.Throughout Heard (start created workers) events := by
  obtain ⟨servers, awake⟩ := start_awake created workers
  exact machine.throughout_of_guarded (Awake servers) Heard (fun _ _ => True)
    (fun system event next awake _ => step_awake servers system event next awake)
    (fun _ awake => awake.heard) events _ awake
    (machine.guarded_of_step _ (fun _ _ _ _ => trivial) events _)

/-! ### At rest

Left to themselves, the server's threads accept what waits and come to rest. -/

/-- What the server's own threads do; the rest comes from clients and from the console. -/
def isOwn : ListenEvent → Bool
  | .wake | .reset | .post | .take _ | .accept _ | .serve _ => true
  | .connect _ | .abort _ | .setTerminating | .setTerminateEvent => false

def listenerWork (listener : Listener) : Nat :=
  6 * listener.backlog + 5 * listener.signaled.toNat

def handleWork (listeners : Nat → Listener) : EventHandle → Nat
  | .terminateEvent => 0
  | .acceptEvent server => listenerWork (listeners server)

def pointWork : RunEventPoint → Nat
  | .waiting => 1
  | .callback _ => 0
  | .posting _ => 4
  | .returned => 0

def workerWork : AcceptWorker → Nat
  | .idle => 0
  | .accepting _ => 1
  | .serving _ => 1

def work (system : AcceptSystem) : Nat :=
  ∑ handle ∈ system.job.m_handles.toFinset, handleWork system.listeners handle +
    pointWork system.runEvent + 2 * system.packets.length + total workerWork system.workers

theorem accept_work (listener : Listener) (server : Nat) :
    listenerWork listener.accept +
        workerWork (if listener.backlog > 0 then .serving server else .idle) <
      listenerWork listener + workerWork (.accepting server) := by
  rw [Listener.accept, listenerWork, listenerWork]
  by_cases waiting : listener.backlog > 0
  · simp only [if_pos waiting, workerWork]
    split
    · dsimp only [Listener.record]
      rw [Bool.toNat_true]
      omega
    · dsimp only
      omega
  · have empty : ¬ listener.backlog - 1 > 0 := by omega
    simp only [if_neg waiting, if_neg empty, workerWork]
    omega

theorem handleWork_update (handles : Finset EventHandle) (listeners : Nat → Listener)
    (server : Nat) (listener : Listener) (listens : .acceptEvent server ∈ handles) :
    ∑ handle ∈ handles, handleWork (Function.update listeners server listener) handle +
        listenerWork (listeners server) =
      ∑ handle ∈ handles, handleWork listeners handle + listenerWork listener := by
  have others : ∑ handle ∈ handles.erase (.acceptEvent server),
        handleWork (Function.update listeners server listener) handle =
      ∑ handle ∈ handles.erase (.acceptEvent server), handleWork listeners handle := by
    refine Finset.sum_congr rfl fun handle member => ?_
    cases handle with
    | terminateEvent => rfl
    | acceptEvent other =>
        have apart : other ≠ server := by
          intro same
          exact Finset.ne_of_mem_erase member (congrArg EventHandle.acceptEvent same)
        rw [handleWork, handleWork, Function.update_of_ne apart]
  rw [← Finset.add_sum_erase _ _ listens, ← Finset.add_sum_erase _ _ listens, others, handleWork,
    handleWork, Function.update_self]
  omega

theorem Awake.acceptEvent_mem {servers : List Nat} {system : AcceptSystem}
    (awake : Awake servers system) (server : Nat) (used : system.listeners server ≠ .create) :
    EventHandle.acceptEvent server ∈ system.job.m_handles := by
  rw [awake.registered.handles]
  exact List.mem_cons_of_mem _ (List.mem_map_of_mem (awake.listens server used))

/-- What stays where only the server's threads take steps. -/
structure Alone (servers : List Nat) (before system : AcceptSystem) : Prop where
  awake : Awake servers system
  job : system.job = before.job
  workers : system.workers.length = before.workers.length
  arrived : ∀ server, (system.listeners server).arrived = (before.listeners server).arrived
  aborted : ∀ server, (system.listeners server).aborted = (before.listeners server).aborted

theorem setListener_kept (system : AcceptSystem) (server : Nat) (listener : Listener)
    (same : listener.arrived = (system.listeners server).arrived ∧
      listener.aborted = (system.listeners server).aborted) (other : Nat) :
    ((system.setListener server listener).listeners other).arrived =
        (system.listeners other).arrived ∧
      ((system.setListener server listener).listeners other).aborted =
        (system.listeners other).aborted := by
  by_cases isServer : other = server
  · subst isServer
    rw [setListener_same]
    exact same
  · rw [setListener_other system server other listener isServer]
    exact ⟨rfl, rfl⟩

theorem accept_kept (listener : Listener) :
    listener.accept.arrived = listener.arrived ∧ listener.accept.aborted = listener.aborted := by
  rw [Listener.accept]
  dsimp only
  split
  · exact ⟨rfl, rfl⟩
  · exact ⟨rfl, rfl⟩

/-- No step of the server's threads ends or starts one, or a connection. -/
theorem step_kept (system : AcceptSystem) (event : ListenEvent) (next : AcceptSystem)
    (own : isOwn event = true) (stepped : machine.step system event = some next) :
    next.job = system.job ∧ next.workers.length = system.workers.length ∧
      ∀ server, (next.listeners server).arrived = (system.listeners server).arrived ∧
        (next.listeners server).aborted = (system.listeners server).aborted := by
  cases event with
  | connect _ => cases own
  | abort _ => cases own
  | setTerminating => cases own
  | setTerminateEvent => cases own
  | wake =>
      simp only [machine, step] at stepped
      split at stepped
      · split at stepped
        · cases stepped
          exact ⟨rfl, rfl, fun _ => ⟨rfl, rfl⟩⟩
        · split at stepped
          · cases stepped
            exact ⟨rfl, rfl, fun _ => ⟨rfl, rfl⟩⟩
          · cases stepped
            exact ⟨rfl, rfl, fun _ => ⟨rfl, rfl⟩⟩
          · cases stepped
      · cases stepped
  | reset =>
      simp only [machine, step] at stepped
      split at stepped
      · rename_i server _
        cases stepped
        exact ⟨rfl, rfl, setListener_kept system server _ ⟨rfl, rfl⟩⟩
      · cases stepped
  | post =>
      simp only [machine, step] at stepped
      split at stepped
      · cases stepped
        exact ⟨rfl, rfl, fun _ => ⟨rfl, rfl⟩⟩
      · cases stepped
  | take i =>
      simp only [machine, step] at stepped
      split at stepped
      · cases stepped
        exact ⟨rfl, List.length_set, fun _ => ⟨rfl, rfl⟩⟩
      · cases stepped
  | accept i =>
      simp only [machine, step] at stepped
      split at stepped
      · rename_i server _
        cases stepped
        exact ⟨rfl, List.length_set, setListener_kept system server _ (accept_kept _)⟩
      · cases stepped
  | serve i =>
      simp only [machine, step] at stepped
      split at stepped
      · cases stepped
        exact ⟨rfl, List.length_set, fun _ => ⟨rfl, rfl⟩⟩
      · cases stepped

/-- Every step of the server's threads brings them nearer to rest. -/
theorem step_work (servers : List Nat) (system : AcceptSystem) (event : ListenEvent)
    (next : AcceptSystem) (awake : Awake servers system) (own : isOwn event = true)
    (stepped : machine.step system event = some next) : next.work < system.work := by
  rw [work, work]
  cases event with
  | connect _ => cases own
  | abort _ => cases own
  | setTerminating => cases own
  | setTerminateEvent => cases own
  | wake =>
      simp only [machine, step] at stepped
      split at stepped
      · rename_i i at_ result
        rw [at_, pointWork]
        split at stepped
        · cases stepped
          simp only [pointWork]
          omega
        · rename_i going
          obtain ⟨handle, there, signaled⟩ := waitResult_signaled system i result
          rw [awake.registered.object, there] at stepped
          cases handle with
          | terminateEvent => exact absurd (awake.terminating signaled) going
          | acceptEvent server =>
              cases stepped
              simp only [pointWork]
              omega
      · cases stepped
  | reset =>
      simp only [machine, step] at stepped
      split at stepped
      · rename_i server at_
        have held := awake.held server at_
        have listens := awake.acceptEvent_mem server fun fresh => by rw [fresh] at held; cases held
        have moved := handleWork_update system.job.m_handles.toFinset system.listeners server
          { system.listeners server with signaled := false } (List.mem_toFinset.mpr listens)
        cases stepped
        rw [at_]
        simp only [listenerWork, held, Bool.toNat_true, Bool.toNat_false] at moved
        simp only [setListener, pointWork]
        omega
      · cases stepped
  | post =>
      simp only [machine, step] at stepped
      split at stepped
      · rename_i server at_
        cases stepped
        rw [at_]
        simp only [pointWork, List.length_append, List.length_singleton]
        omega
      · cases stepped
  | take i =>
      simp only [machine, step] at stepped
      split at stepped
      · rename_i server rest here posted
        have moved := total_set workerWork system.workers i _ (.accepting server) here
        cases stepped
        rw [posted]
        simp only [goto, workerWork, List.length_cons] at moved ⊢
        omega
      · cases stepped
  | accept i =>
      simp only [machine, step] at stepped
      split at stepped
      · rename_i server here
        have share := le_total (acceptToken server) system.workers i _ here
        have one : acceptToken server (.accepting server) = 1 := if_pos rfl
        obtain ⟨disabled, _⟩ := awake.disabled server (by rw [tokens]; omega)
        have listens := awake.acceptEvent_mem server fun fresh => by
          rw [fresh] at disabled
          cases disabled
        have less := accept_work (system.listeners server) server
        have moved := handleWork_update system.job.m_handles.toFinset system.listeners server
          (system.listeners server).accept (List.mem_toFinset.mpr listens)
        have worked := total_set workerWork system.workers i _
          (if (system.listeners server).backlog > 0 then .serving server else .idle) here
        cases stepped
        simp only [goto, setListener]
        omega
      · cases stepped
  | serve i =>
      simp only [machine, step] at stepped
      split at stepped
      · rename_i server here
        have moved := total_set workerWork system.workers i _ .idle here
        cases stepped
        simp only [goto, workerWork] at moved ⊢
        omega
      · cases stepped

/-- Threads that can do nothing have left no connection waiting. -/
theorem Awake.rest {servers : List Nat} {system : AcceptSystem} (awake : Awake servers system)
    (some_ : 0 < system.workers.length) (going : system.job.m_terminating = false)
    (rest : ∀ event, isOwn event = true → machine.step system event = none) (server : Nat) :
    (system.listeners server).backlog = 0 := by
  have waits : system.runEvent = .waiting := by
    cases at_ : system.runEvent with
    | waiting => rfl
    | callback other =>
        have stuck := rest .reset rfl
        simp only [machine, step, at_] at stuck
        cases stuck
    | posting other =>
        have stuck := rest .post rfl
        simp only [machine, step, at_] at stuck
        cases stuck
    | returned =>
        have terminating := awake.returned at_
        rw [going] at terminating
        cases terminating
  have noneAccepting (i other : Nat) : system.workers[i]? ≠ some (.accepting other) := by
    intro here
    have stuck := rest (.accept i) rfl
    simp only [machine, step, here] at stuck
    cases stuck
  have nothingPosted : system.packets = [] := by
    cases posted : system.packets with
    | nil => rfl
    | cons first more =>
        obtain ⟨worker, here⟩ : ∃ worker, system.workers[0]? = some worker :=
          ⟨_, List.getElem?_eq_getElem some_⟩
        cases worker with
        | idle =>
            have stuck := rest (.take 0) rfl
            simp only [machine, step, here, posted] at stuck
            cases stuck
        | accepting other => exact absurd here (noneAccepting 0 other)
        | serving other =>
            have stuck := rest (.serve 0) rfl
            simp only [machine, step, here] at stuck
            cases stuck
  have nothingSignaled : system.waitResult = none := by
    cases result : system.waitResult with
    | none => rfl
    | some i =>
        obtain ⟨handle, there, _⟩ := waitResult_signaled system i result
        have stuck := rest .wake rfl
        simp only [machine, step, waits, result, going] at stuck
        rw [awake.registered.object, there] at stuck
        cases handle with
        | terminateEvent => cases stuck
        | acceptEvent other => cases stuck
  refine Nat.eq_zero_of_not_pos fun waiting => ?_
  rcases awake.heard.underway server waiting with signaled | posting | posted | accepting
  · have listens := awake.acceptEvent_mem server fun fresh => by
      rw [fresh] at waiting
      cases waiting
    have unsignaled := List.findIdx?_eq_none_iff.mp nothingSignaled _ listens
    rw [isSignaled, signaled] at unsignaled
    cases unsignaled
  · rw [waits] at posting
    cases posting
  · rw [nothingPosted] at posted
    cases posted
  · obtain ⟨i, here⟩ := List.mem_iff_getElem?.mp accepting
    exact noneAccepting i server here

theorem step_workers (system : AcceptSystem) (event : ListenEvent) (next : AcceptSystem)
    (stepped : machine.step system event = some next) :
    next.workers.length = system.workers.length := by
  cases own : isOwn event with
  | true => exact (step_kept system event next own stepped).2.1
  | false =>
      cases event with
      | connect server =>
          simp only [machine, step] at stepped
          split at stepped
          · cases stepped
            rfl
          · cases stepped
      | abort server =>
          simp only [machine, step] at stepped
          split at stepped
          · cases stepped
            rfl
          · cases stepped
      | setTerminating =>
          cases stepped
          rfl
      | setTerminateEvent =>
          simp only [machine, step] at stepped
          split at stepped
          · cases stepped
            rfl
          · cases stepped
      | _ => cases own

/-- Whatever has happened so far, and however its threads take turns from now on: without
further connections the server comes to rest, and has accepted every waiting one by then. -/
theorem settles (created : List Bool) (workers : Nat) (events : List ListenEvent)
    (system : AcceptSystem) (some_ : 0 < workers)
    (reached : machine.run (start created workers) events = some system)
    (going : system.job.m_terminating = false) (more : List ListenEvent) (final : AcceptSystem)
    (own : ∀ event ∈ more, isOwn event = true) (ran : machine.run system more = some final) :
    more.length ≤ system.work ∧
      ((∀ event, isOwn event = true → machine.step final event = none) →
        ∀ server, (final.listeners server).backlog = 0 ∧
          (final.listeners server).accepted =
            (system.listeners server).accepted + (system.listeners server).backlog) := by
  obtain ⟨servers, atStart⟩ := start_awake created workers
  obtain ⟨awake, threads⟩ := machine.run_invariant
    (fun state => Awake servers state ∧ state.workers.length = workers)
    (fun state event next holds stepped =>
      ⟨step_awake servers state event next holds.1 stepped,
        (step_workers state event next stepped).trans holds.2⟩)
    events _ system ⟨atStart, List.length_replicate⟩ reached
  obtain ⟨alone, bounded⟩ := machine.run_measured (fun event => isOwn event = true)
    (Alone servers system) work
    (fun state event next alone own stepped => by
      obtain ⟨job, length, kept⟩ := step_kept state event next own stepped
      refine ⟨⟨step_awake servers state event next alone.awake stepped, job.trans alone.job,
        length.trans alone.workers, fun server => (kept server).1.trans (alone.arrived server),
        fun server => (kept server).2.trans (alone.aborted server)⟩, ?_⟩
      exact step_work servers state event next alone.awake own stepped)
    more system final ⟨awake, rfl, rfl, fun _ => rfl, fun _ => rfl⟩ own ran
  refine ⟨by omega, fun rest server => ?_⟩
  have length := alone.workers
  have empty := alone.awake.rest (by omega) (by rw [alone.job]; exact going) rest server
  have before := awake.counted server
  have after := alone.awake.counted server
  rw [alone.arrived, alone.aborted] at after
  exact ⟨empty, by omega⟩

theorem settles_one : ∃ system final,
    machine.run (start [true] 1) [.connect 0] = some system ∧
    machine.run system [.wake, .reset, .post, .take 0, .accept 0, .serve 0] = some final ∧
    6 ≤ system.work ∧
    ∀ server, (final.listeners server).backlog = 0 ∧
      (final.listeners server).accepted =
        (system.listeners server).accepted + (system.listeners server).backlog := by
  refine ⟨_, _, rfl, rfl, ?_⟩
  obtain ⟨bounded, settled⟩ := settles [true] 1 [.connect 0] _ Nat.one_pos rfl rfl
    [.wake, .reset, .post, .take 0, .accept 0, .serve 0] _ (by decide) rfl
  refine ⟨bounded, settled fun event own => ?_⟩
  cases event with
  | connect _ => cases own
  | abort _ => cases own
  | setTerminating => cases own
  | setTerminateEvent => cases own
  | wake => rfl
  | reset => rfl
  | post => rfl
  | take i =>
      cases i with
      | zero => rfl
      | succ i => rfl
  | accept i =>
      cases i with
      | zero => rfl
      | succ i => rfl
  | serve i =>
      cases i with
      | zero => rfl
      | succ i => rfl

/-! ### The end of `RunEvent` -/

def isRunEvent : ListenEvent → Bool
  | .wake | .reset | .post => true
  | .connect _ | .abort _ | .setTerminating | .setTerminateEvent => false
  | .take _ | .accept _ | .serve _ => false

def stepsToReturn : RunEventPoint → Nat
  | .waiting => 1
  | .callback _ => 3
  | .posting _ => 2
  | .returned => 0

structure Ending (servers : List Nat) (system : AcceptSystem) : Prop where
  awake : Awake servers system
  signaled : system.terminateSignaled = true

theorem Ending.terminating {servers : List Nat} {system : AcceptSystem}
    (ending : Ending servers system) : system.job.m_terminating = true :=
  ending.awake.terminating ending.signaled

theorem step_ending (servers : List Nat) (system : AcceptSystem) (event : ListenEvent)
    (next : AcceptSystem) (ending : Ending servers system)
    (stepped : machine.step system event = some next) :
    Ending servers next ∧
      stepsToReturn next.runEvent + (isRunEvent event).toNat = stepsToReturn system.runEvent := by
  have awake := step_awake servers system event next ending.awake stepped
  have signaled := ending.signaled
  cases event with
  | connect server =>
      simp only [machine, step] at stepped
      split at stepped
      · cases stepped
        exact ⟨⟨awake, signaled⟩, rfl⟩
      · cases stepped
  | abort server =>
      simp only [machine, step] at stepped
      split at stepped
      · cases stepped
        exact ⟨⟨awake, signaled⟩, rfl⟩
      · cases stepped
  | setTerminating =>
      cases stepped
      exact ⟨⟨awake, signaled⟩, rfl⟩
  | setTerminateEvent =>
      simp only [machine, step] at stepped
      split at stepped
      · cases stepped
        exact ⟨⟨awake, rfl⟩, rfl⟩
      · cases stepped
  | wake =>
      simp only [machine, step] at stepped
      split at stepped
      · rename_i i at_ _
        rw [if_pos ending.terminating] at stepped
        cases stepped
        rw [at_]
        exact ⟨⟨awake, signaled⟩, rfl⟩
      · cases stepped
  | reset =>
      simp only [machine, step] at stepped
      split at stepped
      · rename_i server at_
        cases stepped
        rw [at_]
        exact ⟨⟨awake, signaled⟩, rfl⟩
      · cases stepped
  | post =>
      simp only [machine, step] at stepped
      split at stepped
      · rename_i server at_
        cases stepped
        rw [at_]
        exact ⟨⟨awake, signaled⟩, rfl⟩
      · cases stepped
  | take i =>
      simp only [machine, step] at stepped
      split at stepped
      · cases stepped
        exact ⟨⟨awake, signaled⟩, rfl⟩
      · cases stepped
  | accept i =>
      simp only [machine, step] at stepped
      split at stepped
      · cases stepped
        exact ⟨⟨awake, signaled⟩, rfl⟩
      · cases stepped
  | serve i =>
      simp only [machine, step] at stepped
      split at stepped
      · cases stepped
        exact ⟨⟨awake, signaled⟩, rfl⟩
      · cases stepped

/-- The manual-reset event stays set, so the thread is not held up any more. -/
theorem Ending.unblocked {servers : List Nat} {system : AcceptSystem}
    (ending : Ending servers system) (going : system.runEvent ≠ .returned) :
    ∃ event, isRunEvent event = true ∧ (machine.step system event).isSome := by
  cases at_ : system.runEvent with
  | waiting =>
      refine ⟨.wake, rfl, ?_⟩
      cases result : system.waitResult with
      | none =>
          have first : EventHandle.terminateEvent ∈ system.job.m_handles := by
            rw [ending.awake.registered.handles]
            exact List.mem_cons_self
          have unsignaled := List.findIdx?_eq_none_iff.mp result _ first
          rw [isSignaled, ending.signaled] at unsignaled
          cases unsignaled
      | some i =>
          simp only [machine, step, at_, result]
          rw [if_pos ending.terminating]
          rfl
  | callback server =>
      refine ⟨.reset, rfl, ?_⟩
      simp only [machine, step, at_]
      rfl
  | posting server =>
      refine ⟨.post, rfl, ?_⟩
      simp only [machine, step, at_]
      rfl
  | returned => exact absurd at_ going

/-- Once `SetTerminate` is done, the thread in `RunEvent` needs at most three more steps, and
nothing holds it up on its way, whatever clients and workers do. -/
theorem runEvent_ends (created : List Bool) (workers : Nat) (events : List ListenEvent)
    (system : AcceptSystem) (reached : machine.run (start created workers) events = some system)
    (signaled : system.terminateSignaled = true) (more : List ListenEvent)
    (final : AcceptSystem) (ran : machine.run system more = some final) :
    more.countP isRunEvent + stepsToReturn final.runEvent = stepsToReturn system.runEvent ∧
      (final.runEvent = .returned ∨
        ∃ event, isRunEvent event = true ∧ (machine.step final event).isSome) := by
  obtain ⟨servers, atStart⟩ := start_awake created workers
  have awake := machine.run_invariant (Awake servers)
    (fun state event next awake stepped => step_awake servers state event next awake stepped)
    events _ system atStart reached
  obtain ⟨ending, counted⟩ := machine.run_counted isRunEvent (Ending servers)
    (fun state => stepsToReturn state.runEvent)
    (fun state event next ending stepped => step_ending servers state event next ending stepped)
    more system final ⟨awake, signaled⟩ ran
  refine ⟨(Nat.add_comm _ _).trans counted, ?_⟩
  by_cases returned : final.runEvent = .returned
  · exact Or.inl returned
  · exact Or.inr (ending.unblocked returned)

theorem runEvent_ends_callback : ∃ system final,
    machine.run (start [true] 1) [.connect 0, .wake, .setTerminating, .setTerminateEvent] =
      some system ∧
    machine.run system [.reset, .connect 0, .post, .take 0, .wake] = some final ∧
    3 + stepsToReturn final.runEvent = stepsToReturn system.runEvent := by
  refine ⟨_, _, rfl, rfl, ?_⟩
  exact (runEvent_ends [true] 1 [.connect 0, .wake, .setTerminating, .setTerminateEvent] _ rfl rfl
    [.reset, .connect 0, .post, .take 0, .wake] _ rfl).1

end AcceptSystem

end AuthServer
