/-
The objects of client connections under any number of threads.

Worker threads accept, read, write, handle packets and close, and timers fire on threads of
their own; a thread is the list of what it has still to do, and one step of it is one step of
the source that another thread can see.  The system gives a handle away again only after
`closesocket`.  A wake-up of a timer may come at any time and for any handle, since
`DeleteTimerQueueTimer` does not wait for it.  `deleted` and `leaked` are history variables.
-/

import AuthServer.AccessLimit
import AuthServer.Lib.EventRuns
import AuthServer.Lib.Holdings
import Mathlib.Algebra.Order.Group.Int

set_option autoImplicit false

namespace AuthServer

open Holdings Processes

inductive LifeAction where
  | insertSocket (handle object : Nat)
  | addRef (object : Nat)
  | associate (object : Nat)
  | onRead (object : Nat)
  | postPacket (object : Nat)
  | read (object : Nat)
  | receive (object : Nat)
  | write (object : Nat)
  | send (object : Nat)
  | onReadCallback (object : Nat)
  | onWriteCallback (object : Nat)
  | handler (object : Nat)
  | onTimerCallback (object : Nat)
  | closeSocket (object : Nat)
  | removeSocket (handle object : Nat)
  | closesocket (handle object : Nat)
  | releaseRef (object : Nat)
  | leave (object : Nat)
  | findSocket (handle : Nat) (timer : Bool)
  deriving DecidableEq

namespace LifeAction

def object? : LifeAction → Option Nat
  | .insertSocket _ object | .addRef object | .associate object | .onRead object
  | .postPacket object | .read object | .receive object | .write object | .send object
  | .onReadCallback object | .onWriteCallback object | .handler object | .onTimerCallback object
  | .closeSocket object | .removeSocket _ object | .closesocket _ object | .releaseRef object
  | .leave object => some object
  | .findSocket _ _ => none

def reference? : LifeAction → Option Nat
  | .associate object | .postPacket object | .receive object | .send object | .releaseRef object
  | .leave object => some object
  | _ => none

def creates? : LifeAction → Option Nat
  | .insertSocket _ object | .addRef object => some object
  | _ => none

def uses? : LifeAction → Option Nat
  | .insertSocket _ _ | .addRef _ => none
  | action => action.object?

end LifeAction

theorem LifeAction.object_of_uses (action : LifeAction) (object : Nat)
    (uses : action.uses? = some object) : action.object? = some object := by
  cases action with
  | insertSocket | addRef => cases uses
  | _ => exact uses

inductive LifeOutcome where
  | goesOn
  | fails
  | posts
  | sends
  | closes
  deriving DecidableEq

/-- What a step of a thread changes in memory. -/
inductive LifeChange where
  | nothing
  | addRef (object : Nat)
  | releaseRef (object : Nat)
  | takeHandle (object : Nat)
  | insertSocket (handle object : Nat)
  | removeSocket (handle : Nat)
  | closesocket (handle : Nat)
  | postPacket (object : Nat)
  | receive (object : Nat)
  | send (object : Nat)
  | leave (object : Nat)

structure ClientLives where
  refcount : Nat → Int
  hSocket : Nat → Option Nat
  nextObject : Nat
  opened : Nat → Bool
  socketmap : Nat → Option Nat
  receives : List Nat
  sends : List Nat
  packets : List Nat
  threads : List (List LifeAction)
  deleted : List Nat
  leaked : List Nat

inductive LifeEvent where
  | accept (i : Nat) (handle : Nat)
  | findSocket (i : Nat) (handle : Nat) (timer : Bool)
  | run (i : Nat) (outcome : LifeOutcome)
  | received (i : Nat) (object : Nat) (success : Bool)
  | sent (i : Nat) (object : Nat) (success : Bool)
  | posted (i : Nat) (object : Nat)

namespace ClientLives

def start (threads : Nat) : ClientLives where
  refcount := fun _ => 0
  hSocket := fun _ => none
  nextObject := 0
  opened := fun _ => false
  socketmap := fun _ => none
  receives := []
  sends := []
  packets := []
  threads := List.replicate threads []
  deleted := []
  leaked := []

def addRef (lives : ClientLives) (object : Nat) : ClientLives :=
  { lives with refcount := Function.update lives.refcount object (lives.refcount object + 1) }

def releaseRef (lives : ClientLives) (object : Nat) : ClientLives :=
  { lives with
    refcount := Function.update lives.refcount object (lives.refcount object - 1)
    deleted :=
      if lives.refcount object - 1 = 0 then object :: lives.deleted else lives.deleted }

@[simp] theorem addRef_same (lives : ClientLives) (object : Nat) :
    (lives.addRef object).refcount object = lives.refcount object + 1 :=
  Function.update_self _ _ _

theorem addRef_other (lives : ClientLives) (object other : Nat) (differ : other ≠ object) :
    (lives.addRef object).refcount other = lives.refcount other :=
  Function.update_of_ne differ _ _

@[simp] theorem releaseRef_same (lives : ClientLives) (object : Nat) :
    (lives.releaseRef object).refcount object = lives.refcount object - 1 :=
  Function.update_self _ _ _

theorem releaseRef_other (lives : ClientLives) (object other : Nat) (differ : other ≠ object) :
    (lives.releaseRef object).refcount other = lives.refcount other :=
  Function.update_of_ne differ _ _

def change (lives : ClientLives) : LifeChange → ClientLives
  | .nothing => lives
  | .addRef object => lives.addRef object
  | .releaseRef object => lives.releaseRef object
  | .takeHandle object => { lives with hSocket := Function.update lives.hSocket object none }
  | .insertSocket handle object =>
      { lives with socketmap := AcceptSide.insertSocket lives.socketmap handle object }
  | .removeSocket handle =>
      { lives with socketmap := Function.update lives.socketmap handle none }
  | .closesocket handle => { lives with opened := Function.update lives.opened handle false }
  | .postPacket object => { lives with packets := object :: lives.packets }
  | .receive object => { lives with receives := object :: lives.receives }
  | .send object => { lives with sends := object :: lives.sends }
  | .leave object => { lives with leaked := object :: lives.leaked }

/-- What one step of a thread changes, and what the thread does next in its place. -/
def effect (lives : ClientLives) :
    LifeAction → LifeOutcome → Option (LifeChange × List LifeAction)
  | .insertSocket handle object, .goesOn => some (.insertSocket handle object, [])
  -- `Initialize`; where the handle cannot be associated, it returns without `ReleaseRef`
  | .addRef object, .goesOn => some (.addRef object, [.associate object])
  | .associate object, .goesOn => some (.nothing, [.onRead object, .releaseRef object])
  | .associate object, .fails => some (.nothing, [.closeSocket object, .leave object])
  | .onRead object, .posts => some (.addRef object, [.postPacket object, .onRead object])
  | .onRead object, .goesOn => some (.nothing, [.read object])
  | .onRead object, .closes => some (.nothing, [.closeSocket object])
  | .postPacket object, .goesOn => some (.postPacket object, [])
  | .read object, .goesOn => some (.addRef object, [.receive object])
  | .receive object, .goesOn => some (.receive object, [])
  | .receive object, .fails => some (.nothing, [.closeSocket object, .releaseRef object])
  | .write _, .goesOn => some (.nothing, [])
  | .write object, .sends => some (.addRef object, [.send object])
  | .send object, .goesOn => some (.send object, [])
  | .send object, .fails => some (.nothing, [.releaseRef object])
  | .onReadCallback object, .closes => some (.nothing, [.closeSocket object])
  | .onReadCallback object, .goesOn =>
      some (.nothing, if lives.refcount object ≤ 0 then [] else [.onRead object])
  | .onWriteCallback _, .goesOn => some (.nothing, [])
  | .onWriteCallback object, .sends => some (.addRef object, [.send object])
  -- `dwTransferred` is not the size of the first buffer
  | .onWriteCallback object, .fails => some (.nothing, [.releaseRef object])
  | .handler _, .goesOn => some (.nothing, [])
  | .handler object, .sends => some (.nothing, [.write object, .handler object])
  | .handler object, .closes => some (.nothing, [.closeSocket object, .handler object])
  | .onTimerCallback _, .goesOn => some (.nothing, [])
  | .onTimerCallback object, .closes => some (.nothing, [.closeSocket object])
  | .closeSocket object, .goesOn =>
      match lives.hSocket object with
      | none => some (.nothing, [])
      | some handle =>
          some (.takeHandle object,
            [.removeSocket handle object, .closesocket handle object, .releaseRef object])
  | .removeSocket handle _, .goesOn => some (.removeSocket handle, [])
  | .closesocket handle _, .goesOn => some (.closesocket handle, [])
  | .releaseRef object, .goesOn => some (.releaseRef object, [])
  | .leave object, .goesOn => some (.leave object, [])
  -- `FindSocket`, and what `SendSocketEx` and `SocketExTimerCallback` do with the object
  | .findSocket handle timer, .goesOn =>
      match lives.socketmap handle with
      | none => some (.nothing, [])
      | some object =>
          some (.addRef object,
            [if timer then .onTimerCallback object else .write object, .releaseRef object])
  | _, _ => none

def goto (lives : ClientLives) (i : Nat) (todo : List LifeAction) : ClientLives :=
  { lives with threads := lives.threads.set i todo }

def callback (lives : ClientLives) (i : Nat) (object : Nat) (done : Nat → LifeAction)
    (success : Bool) : ClientLives :=
  lives.goto i [if success then done object else .closeSocket object, .releaseRef object]

def step (lives : ClientLives) : LifeEvent → Option ClientLives
  | .accept i handle =>
      if lives.threads[i]? = some [] ∧ lives.opened handle = false then
        some ({ lives with
          refcount := Function.update lives.refcount lives.nextObject 1
          hSocket := Function.update lives.hSocket lives.nextObject (some handle)
          opened := Function.update lives.opened handle true
          nextObject := lives.nextObject + 1 }.goto i
            [.insertSocket handle lives.nextObject, .addRef lives.nextObject])
      else none
  | .findSocket i handle timer =>
      match lives.threads[i]? with
      | some todo => some (lives.goto i (.findSocket handle timer :: todo))
      | none => none
  | .run i outcome =>
      match lives.threads[i]? with
      | some (action :: rest) =>
          (lives.effect action outcome).map fun (change, front) =>
            (lives.change change).goto i (front ++ rest)
      | _ => none
  | .received i object success =>
      if lives.threads[i]? = some [] ∧ object ∈ lives.receives then
        some ({ lives with receives := lives.receives.erase object }.callback i object
          .onReadCallback success)
      else none
  | .sent i object success =>
      if lives.threads[i]? = some [] ∧ object ∈ lives.sends then
        some ({ lives with sends := lives.sends.erase object }.callback i object
          .onWriteCallback success)
      else none
  | .posted i object =>
      if lives.threads[i]? = some [] ∧ object ∈ lives.packets then
        some ({ lives with packets := lives.packets.erase object }.callback i object
          .handler true)
      else none

def machine : EventRuns.Machine ClientLives LifeEvent := ⟨step⟩

/-! ### What holds references -/

def outside (lives : ClientLives) (object : Nat) : Nat :=
  (lives.hSocket object).isSome.toNat + lives.receives.count object + lives.sends.count object +
    lives.packets.count object + lives.leaked.count object

def holders (lives : ClientLives) (object : Nat) : Nat :=
  lives.outside object + total (held LifeAction.reference? object) lives.threads

def target (lives : ClientLives) : LifeAction → Option Nat
  | .findSocket handle _ => lives.socketmap handle
  | action => action.object?

/-- Nobody touches an object that is gone, and it is gone as soon as nothing holds it. -/
structure Safe (lives : ClientLives) : Prop where
  touches : ∀ (i : Nat) (action : LifeAction) (rest : List LifeAction), lives.threads[i]? =
    some (action :: rest) → ∀ object, lives.target action = some object →
      object < lives.nextObject ∧ object ∉ lives.deleted
  listed : ∀ handle object, lives.socketmap handle = some object → object ∉ lives.deleted
  gone : ∀ object, object < lives.nextObject →
    (object ∈ lives.deleted ↔ lives.holders object = 0)
  once : lives.deleted.Nodup

/-- Nobody closes a connection before `Initialize` has taken its reference, and a send that
succeeds transfers its whole buffer. -/
def orderly (lives : ClientLives) : LifeEvent → Bool
  | .run i outcome =>
      match lives.threads[i]? with
      | some (.closeSocket object :: _) =>
          lives.threads.all fun todo => todo.all fun action => action.creates? != some object
      | some (.onWriteCallback _ :: _) => outcome != .fails
      | _ => true
  | _ => true

end ClientLives

/-! ### What a step hands from one holder to another -/

namespace LifeChange

def gained? : LifeChange → Option Nat
  | .addRef object | .takeHandle object => some object
  | _ => none

def lost? : LifeChange → Option Nat
  | .releaseRef object | .postPacket object | .receive object | .send object | .leave object =>
      some object
  | _ => none

def share (object : Nat) (of : Option Nat) : Nat := if of = some object then 1 else 0

end LifeChange

namespace ClientLives

open LifeChange (share)

/-- Of a transfer that is not whole, the source gives back a reference it does not have. -/
def ordinary : LifeAction → LifeOutcome → Prop
  | .onWriteCallback _, .fails => False
  | _, _ => True

theorem effect_balanced (lives : ClientLives) (action : LifeAction) (outcome : LifeOutcome)
    (change : LifeChange) (front : List LifeAction) (isOrdinary : ordinary action outcome)
    (effects : lives.effect action outcome = some (change, front)) (object : Nat) :
    held LifeAction.reference? object front + share object change.lost? =
      held LifeAction.reference? object [action] + share object change.gained? := by
  unfold effect at effects
  split at effects
  all_goals try split at effects
  all_goals cases effects
  all_goals try split
  all_goals
    simp only [held_cons, held_nil, LifeAction.reference?, LifeChange.lost?, LifeChange.gained?,
      share, reduceCtorEq, if_false, Nat.zero_add, Nat.add_zero]
  all_goals first | rfl | exact isOrdinary.elim

/-- What a thread goes on with is all about the object of the step, and it is held either by
the last of these actions or by what comes behind them. -/
theorem effect_front (lives : ClientLives) (action : LifeAction) (outcome : LifeOutcome)
    (change : LifeChange) (front : List LifeAction)
    (effects : lives.effect action outcome = some (change, front)) :
    front = [] ∨ ∃ object, lives.target action = some object ∧
      (∀ other ∈ front, other.object? = some object ∧ other.creates? = none) ∧
      (action.uses? = some object ∧ action.reference? = none ∨
        ∃ last ∈ front.getLast?, last.reference? = some object) := by
  unfold effect at effects
  split at effects
  all_goals try split at effects
  all_goals cases effects
  all_goals try split
  all_goals
    first
    | exact Or.inl rfl
    | refine Or.inr ⟨_, by first | rfl | assumption, ?_, ?_⟩
      · simp only [List.forall_mem_cons, LifeAction.object?, LifeAction.creates?,
          List.not_mem_nil, false_implies, implies_true, and_self]
      · simp [LifeAction.uses?, LifeAction.reference?, LifeAction.object?]

theorem effect_change (lives : ClientLives) (action : LifeAction) (outcome : LifeOutcome)
    (change : LifeChange) (front : List LifeAction)
    (effects : lives.effect action outcome = some (change, front)) :
    (∀ object, change = .addRef object ∨ change = .releaseRef object →
      lives.target action = some object) ∧
    (∀ object, change = .takeHandle object → action = .closeSocket object ∧
      ∃ handle, lives.hSocket object = some handle ∧ .removeSocket handle object ∈ front) ∧
    (∀ handle object, change = .insertSocket handle object →
      action = .insertSocket handle object) ∧
    (∀ handle object, action = .removeSocket handle object → change = .removeSocket handle) := by
  unfold effect at effects
  split at effects
  all_goals try split at effects
  all_goals cases effects
  all_goals
    refine ⟨?_, ?_, ?_, ?_⟩
    all_goals simp [target, LifeAction.object?]
  all_goals assumption

theorem change_threads (lives : ClientLives) (change : LifeChange) :
    (lives.change change).threads = lives.threads := by
  cases change <;> rfl

theorem change_nextObject (lives : ClientLives) (change : LifeChange) :
    (lives.change change).nextObject = lives.nextObject := by
  cases change <;> rfl

theorem change_hSocket (lives : ClientLives) (change : LifeChange) (object : Nat)
    (other : change ≠ .takeHandle object) :
    (lives.change change).hSocket object = lives.hSocket object := by
  cases change with
  | takeHandle taken =>
      exact Function.update_of_ne (fun same => other (congrArg LifeChange.takeHandle same.symm)) _ _
  | _ => rfl

theorem change_balanced (lives : ClientLives) (change : LifeChange) (object : Nat)
    (isOpen : ∀ taken, change = .takeHandle taken → (lives.hSocket taken).isSome) :
    (lives.change change).refcount object + lives.outside object + share object change.lost? =
      lives.refcount object + (lives.change change).outside object +
        share object change.gained? := by
  cases change with
  | addRef taken =>
      change (lives.addRef taken).refcount object + lives.outside object + 0 =
        lives.refcount object + lives.outside object + share object (some taken)
      by_cases same : object = taken
      · rw [same, addRef_same, share, if_pos rfl]
        omega
      · rw [addRef_other lives taken object same, share,
          if_neg (fun isSome => same (Option.some.inj isSome).symm)]
        rfl
  | releaseRef taken =>
      change (lives.releaseRef taken).refcount object + lives.outside object +
        share object (some taken) = lives.refcount object + lives.outside object + 0
      by_cases same : object = taken
      · rw [same, releaseRef_same, share, if_pos rfl]
        omega
      · rw [releaseRef_other lives taken object same, share,
          if_neg (fun isSome => same (Option.some.inj isSome).symm)]
        rfl
  | takeHandle taken =>
      by_cases same : taken = object
      · subst same
        simp only [ClientLives.change, outside, Function.update_self, isOpen taken rfl, share,
          LifeChange.lost?, LifeChange.gained?, if_true, reduceCtorEq, if_false, Bool.toNat_true]
        rw [Option.isSome_none, Bool.toNat_false]
        omega
      · simp only [ClientLives.change, outside, share, LifeChange.lost?, LifeChange.gained?,
          Function.update_of_ne (Ne.symm same), Option.some.injEq, same, reduceCtorEq, if_false]
  | postPacket taken | receive taken | send taken | leave taken =>
      simp only [ClientLives.change, outside, List.count_cons, share, LifeChange.lost?,
        LifeChange.gained?, Option.some.injEq, beq_iff_eq, reduceCtorEq, if_false]
      omega
  | nothing | insertSocket _ _ | removeSocket _ | closesocket _ => rfl

theorem insertSocket_cases (socketmap : Nat → Option Nat) (handle object other found : Nat)
    (mapped : AcceptSide.insertSocket socketmap handle object other = some found) :
    socketmap other = some found ∨ other = handle ∧ found = object := by
  cases listed : socketmap handle with
  | some present =>
      rw [AcceptSide.insertSocket, listed] at mapped
      exact Or.inl mapped
  | none =>
      rw [AcceptSide.insertSocket, listed] at mapped
      have updated : Function.update socketmap handle (some object) other = some found := mapped
      by_cases same : other = handle
      · rw [same, Function.update_self] at updated
        exact Or.inr ⟨same, (Option.some.inj updated).symm⟩
      · rw [Function.update_of_ne same] at updated
        exact Or.inl updated

/-! ### The invariant -/

structure Invariant (lives : ClientLives) : Prop where
  counted : ∀ object, lives.refcount object = lives.holders object
  covered : ∀ todo ∈ lives.threads, Covered LifeAction.reference? LifeAction.uses? todo
  creating : ∀ todo ∈ lives.threads, ∀ action ∈ todo, ∀ object,
    action.creates? = some object → (lives.hSocket object).isSome
  inserting : ∀ todo ∈ lives.threads, ∀ handle object,
    .insertSocket handle object ∈ todo → lives.hSocket object = some handle
  mapped : ∀ handle object, lives.socketmap handle = some object →
    lives.hSocket object = some handle ∨
      ∃ todo ∈ lives.threads, .removeSocket handle object ∈ todo
  fresh : ∀ object, lives.nextObject ≤ object → lives.refcount object = 0
  gone : ∀ object, object ∈ lives.deleted ↔
    object < lives.nextObject ∧ lives.refcount object = 0
  once : lives.deleted.Nodup

theorem start_invariant (threads : Nat) : (start threads).Invariant := by
  have nothing : ∀ todo ∈ (start threads).threads, todo = [] :=
    fun todo member => List.eq_of_mem_replicate member
  refine ⟨fun object => ?_, fun todo member => ?_, fun todo member action inTodo => ?_,
    fun todo member handle object inTodo => ?_, fun handle object found => ?_,
    fun object _ => rfl, fun object => ?_, List.nodup_nil⟩
  · rw [holders, start, total_replicate _ _ _ (held_nil _ object)]
    rfl
  · rw [nothing todo member]
    trivial
  · rw [nothing todo member] at inTodo
    cases inTodo
  · rw [nothing todo member] at inTodo
    cases inTodo
  · cases found
  · exact ⟨fun member => absurd member List.not_mem_nil,
      fun given => absurd given.1 (Nat.not_lt_zero _)⟩

theorem alive_of_open (lives : ClientLives) (object : Nat)
    (isOpen : (lives.hSocket object).isSome) : 0 < lives.holders object := by
  rw [holders, outside, isOpen, Bool.toNat_true]
  omega

namespace Invariant

variable {lives : ClientLives} (invariant : lives.Invariant)

include invariant

theorem alive_of_uses (todo : List LifeAction) (thread : todo ∈ lives.threads)
    (action : LifeAction) (member : action ∈ todo) (object : Nat)
    (uses : action.uses? = some object) : 0 < lives.holders object := by
  obtain ⟨i, here⟩ := List.mem_iff_getElem?.mp thread
  have own := (invariant.covered todo thread).holds action member object uses
  have all := le_total (held LifeAction.reference? object) lives.threads i todo here
  rw [holders]
  omega

theorem alive_of_mapped (handle object : Nat) (mapped : lives.socketmap handle = some object) :
    0 < lives.holders object := by
  rcases invariant.mapped handle object mapped with isOpen | ⟨todo, thread, member⟩
  · exact alive_of_open lives object (Option.isSome_of_eq_some isOpen)
  · exact invariant.alive_of_uses todo thread _ member object rfl

/-- What a thread touches in its next step is alive. -/
theorem alive (i : Nat) (action : LifeAction) (rest : List LifeAction)
    (here : lives.threads[i]? = some (action :: rest)) (object : Nat)
    (touched : lives.target action = some object) : 0 < lives.holders object := by
  have thread := List.mem_of_getElem? here
  cases action with
  | insertSocket handle made | addRef made =>
      exact alive_of_open lives object (invariant.creating _ thread _ List.mem_cons_self object
        touched)
  | findSocket handle timer => exact invariant.alive_of_mapped handle object touched
  | _ => exact invariant.alive_of_uses _ thread _ List.mem_cons_self object touched

theorem existing (object : Nat) (alive : 0 < lives.holders object) :
    object < lives.nextObject ∧ object ∉ lives.deleted := by
  have counted := invariant.counted object
  refine ⟨Nat.lt_of_not_le fun unmade => ?_, fun gone => ?_⟩
  · rw [invariant.fresh object unmade] at counted
    omega
  · rw [((invariant.gone object).mp gone).2] at counted
    omega

theorem safe : lives.Safe := by
  refine ⟨fun i action rest here object touched =>
      invariant.existing object (invariant.alive i action rest here object touched),
    fun handle object mapped =>
      (invariant.existing object (invariant.alive_of_mapped handle object mapped)).2,
    fun object made => ?_, invariant.once⟩
  rw [invariant.gone, invariant.counted]
  omega

omit invariant in
theorem mem_goto (i : Nat) (todo other : List LifeAction)
    (member : other ∈ (lives.goto i todo).threads) : other = todo ∨ other ∈ lives.threads :=
  (List.mem_or_eq_of_mem_set member).symm

omit invariant in
theorem todo_mem_goto (i : Nat) (before todo : List LifeAction)
    (here : lives.threads[i]? = some before) : todo ∈ (lives.goto i todo).threads := by
  refine List.mem_of_getElem? (i := i) ?_
  rw [goto, List.getElem?_set_self', here]
  rfl

omit invariant in
theorem other_mem_goto (i j : Nat) (todo other : List LifeAction) (differ : j ≠ i)
    (there : lives.threads[j]? = some other) : other ∈ (lives.goto i todo).threads := by
  refine List.mem_of_getElem? (i := j) ?_
  rw [goto, List.getElem?_set_ne (Ne.symm differ)]
  exact there

section Run

variable (i : Nat) (action : LifeAction) (rest : List LifeAction) (outcome : LifeOutcome)
  (change : LifeChange) (front : List LifeAction)
  (here : lives.threads[i]? = some (action :: rest))
  (effects : lives.effect action outcome = some (change, front))

include here effects

theorem run_counted (isOrdinary : ordinary action outcome) (object : Nat) :
    ((lives.change change).goto i (front ++ rest)).refcount object =
      ((lives.change change).goto i (front ++ rest)).holders object := by
  have isOpen : ∀ taken, change = .takeHandle taken → (lives.hSocket taken).isSome := by
    intro taken takes
    obtain ⟨_, handle, isSome, _⟩ := (effect_change _ _ _ _ _ effects).2.1 taken takes
    exact Option.isSome_of_eq_some isSome
  have counted := invariant.counted object
  have balanced := effect_balanced lives action outcome change front isOrdinary effects object
  have changed := change_balanced lives change object isOpen
  have moved := total_proceed LifeAction.reference? object lives.threads i action rest front here
  rw [holders] at counted ⊢
  change (lives.change change).refcount object = (((lives.change change).outside object +
    total (held LifeAction.reference? object)
      ((lives.change change).threads.set i (front ++ rest)) : Nat) : Int)
  rw [change_threads]
  omega

theorem run_covered (todo : List LifeAction)
    (member : todo ∈ ((lives.change change).goto i (front ++ rest)).threads) :
    Covered LifeAction.reference? LifeAction.uses? todo := by
  rcases mem_goto i _ todo member with same | before
  · obtain ⟨own, later⟩ := invariant.covered _ (List.mem_of_getElem? here)
    rw [same]
    rcases effect_front lives action outcome change front effects with
      nothing | ⟨object, _, about, behind | ⟨last, isLast, holds⟩⟩
    · rw [nothing]
      exact later
    · refine later.append_of_held object ?_ (fun other inFront thing uses => ?_)
      · have atFirst := own object behind.1
        rw [held_cons, behind.2] at atFirst
        exact atFirst
      · have isThing := other.object_of_uses thing uses
        rw [(about other inFront).1] at isThing
        exact (Option.some.inj isThing).symm
    · obtain ⟨first, isFront⟩ := List.getLast?_eq_some_iff.mp isLast
      have only : ∀ other ∈ front, ∀ thing, other.uses? = some thing → thing = object := by
        intro other inFront thing uses
        have isThing := other.object_of_uses thing uses
        rw [(about other inFront).1] at isThing
        exact (Option.some.inj isThing).symm
      have atLast : 0 < held LifeAction.reference? object [last] := by
        rw [held_cons, if_pos holds]
        exact Nat.succ_pos _
      have ownLast : Covered LifeAction.reference? LifeAction.uses? [last] := by
        refine ⟨fun thing uses => ?_, trivial⟩
        rw [only last (List.mem_of_getLast? isLast) thing uses]
        exact atLast
      rw [isFront, List.append_assoc]
      refine (ownLast.append later).append_of_held object ?_
        (fun other inFirst => only other (isFront ▸ List.mem_append_left _ inFirst))
      rw [held_append]
      exact Nat.add_pos_left atLast _
  · rw [change_threads] at before
    exact invariant.covered todo before

omit invariant in
/-- Where a thread has an object still to create, it had so before, and the handle is still
the object's. -/
theorem run_creating (calm : ∀ object, action = .closeSocket object →
      ∀ todo ∈ lives.threads, ∀ other ∈ todo, other.creates? ≠ some object)
    (todo : List LifeAction)
    (member : todo ∈ ((lives.change change).goto i (front ++ rest)).threads)
    (other : LifeAction) (inTodo : other ∈ todo) (object : Nat)
    (creates : other.creates? = some object) :
    (lives.change change).hSocket object = lives.hSocket object ∧
      ∃ before ∈ lives.threads, other ∈ before := by
  have was : ∃ before ∈ lives.threads, other ∈ before := by
    rcases mem_goto i _ todo member with same | before
    · rw [same] at inTodo
      rcases List.mem_append.mp inTodo with inFront | inRest
      · rcases effect_front lives action outcome change front effects with
          nothing | ⟨_, _, about, _⟩
        · rw [nothing] at inFront
          cases inFront
        · rw [(about other inFront).2] at creates
          cases creates
      · exact ⟨_, List.mem_of_getElem? here, List.mem_cons_of_mem action inRest⟩
    · rw [change_threads] at before
      exact ⟨todo, before, inTodo⟩
  refine ⟨change_hSocket lives change object (fun takes => ?_), was⟩
  obtain ⟨before, thread, inBefore⟩ := was
  obtain ⟨closes, _⟩ := (effect_change _ _ _ _ _ effects).2.1 object takes
  exact calm object closes before thread other inBefore creates

theorem run_listed (handle object : Nat) (mapped : lives.socketmap handle = some object)
    (kept : change ≠ .removeSocket handle) :
    (lives.change change).hSocket object = some handle ∨
      ∃ todo ∈ ((lives.change change).goto i (front ++ rest)).threads,
        .removeSocket handle object ∈ todo := by
  have threads := change_threads lives change
  have own : front ++ rest ∈ ((lives.change change).goto i (front ++ rest)).threads :=
    todo_mem_goto i (action :: rest) (front ++ rest) (threads ▸ here)
  rcases invariant.mapped handle object mapped with isOpen | ⟨todo, thread, member⟩
  · by_cases takes : change = .takeHandle object
    · obtain ⟨_, taken, wasOpen, removes⟩ := (effect_change _ _ _ _ _ effects).2.1 object takes
      rw [isOpen] at wasOpen
      cases wasOpen
      exact Or.inr ⟨_, own, List.mem_append_left _ removes⟩
    · rw [change_hSocket lives change object takes]
      exact Or.inl isOpen
  · refine Or.inr ?_
    obtain ⟨j, there⟩ := List.mem_iff_getElem?.mp thread
    by_cases same : j = i
    · rw [same, here] at there
      cases there
      rcases List.mem_cons.mp member with isAction | inRest
      · exact absurd ((effect_change _ _ _ _ _ effects).2.2.2 handle object isAction.symm) kept
      · exact ⟨_, own, List.mem_append_right _ inRest⟩
    · exact ⟨todo, other_mem_goto i j (front ++ rest) todo same (threads ▸ there), member⟩

theorem run_mapped (handle object : Nat)
    (mapped : (lives.change change).socketmap handle = some object) :
    (lives.change change).hSocket object = some handle ∨
      ∃ todo ∈ ((lives.change change).goto i (front ++ rest)).threads,
        .removeSocket handle object ∈ todo := by
  cases change with
  | insertSocket made new =>
      have inserts := (effect_change _ _ _ _ _ effects).2.2.1 made new rfl
      rcases insertSocket_cases lives.socketmap made new handle object mapped with old | ⟨rfl, rfl⟩
      · exact invariant.run_listed i action rest outcome _ front here effects handle object old
          LifeChange.noConfusion
      · refine Or.inl (invariant.inserting _ (List.mem_of_getElem? here) handle object ?_)
        rw [inserts]
        exact List.mem_cons_self
  | removeSocket removed =>
      by_cases same : handle = removed
      · rw [same] at mapped
        exact absurd (mapped.symm.trans (Function.update_self _ _ _)) (Option.some_ne_none object)
      · refine invariant.run_listed i action rest outcome _ front here effects handle object ?_
          (fun removes => same (LifeChange.removeSocket.inj removes).symm)
        exact (Function.update_of_ne same _ _).symm.trans mapped
  | _ =>
      exact invariant.run_listed i action rest outcome _ front here effects handle object mapped
        LifeChange.noConfusion

theorem run_fresh (object : Nat) (unmade : lives.nextObject ≤ object) :
    (lives.change change).refcount object = 0 := by
  have isFresh := invariant.fresh object unmade
  have other : ∀ touched, lives.target action = some touched → object ≠ touched := by
    intro touched isTarget same
    have existing := (invariant.existing touched
      (invariant.alive i action rest here touched isTarget)).1
    omega
  have targets := (effect_change _ _ _ _ _ effects).1
  cases change with
  | addRef touched =>
      exact (addRef_other lives touched object (other touched (targets touched (Or.inl rfl)))).trans
        isFresh
  | releaseRef touched =>
      exact (releaseRef_other lives touched object
        (other touched (targets touched (Or.inr rfl)))).trans isFresh
  | _ => exact isFresh

theorem run_gone :
    (∀ object, object ∈ (lives.change change).deleted ↔
      object < lives.nextObject ∧ (lives.change change).refcount object = 0) ∧
    (lives.change change).deleted.Nodup := by
  have targets := (effect_change _ _ _ _ _ effects).1
  have gone := invariant.gone
  have once := invariant.once
  have existing : ∀ touched, lives.target action = some touched →
      touched < lives.nextObject ∧ touched ∉ lives.deleted ∧ 0 < lives.refcount touched := by
    intro touched isTarget
    have alive := invariant.alive i action rest here touched isTarget
    have counted := invariant.counted touched
    obtain ⟨made, stays⟩ := invariant.existing touched alive
    exact ⟨made, stays, by omega⟩
  cases change with
  | addRef touched =>
      obtain ⟨made, stays, positive⟩ := existing touched (targets touched (Or.inl rfl))
      refine ⟨fun object => (gone object).trans ?_, once⟩
      change _ ↔ object < lives.nextObject ∧ (lives.addRef touched).refcount object = 0
      by_cases same : object = touched
      · rw [same, addRef_same]
        omega
      · rw [addRef_other lives touched object same]
  | releaseRef touched =>
      obtain ⟨made, stays, positive⟩ := existing touched (targets touched (Or.inr rfl))
      have others : ∀ object, object ≠ touched → (object ∈ lives.deleted ↔
          object < lives.nextObject ∧ (lives.releaseRef touched).refcount object = 0) := by
        intro object differ
        rw [releaseRef_other lives touched object differ]
        exact gone object
      have own := releaseRef_same lives touched
      change (∀ object, object ∈ (if lives.refcount touched - 1 = 0 then
        touched :: lives.deleted else lives.deleted) ↔ object < lives.nextObject ∧
          (lives.releaseRef touched).refcount object = 0) ∧ (if lives.refcount touched - 1 = 0 then
            touched :: lives.deleted else lives.deleted).Nodup
      split
      next last =>
        refine ⟨fun object => ?_, List.nodup_cons.mpr ⟨stays, once⟩⟩
        rw [List.mem_cons]
        by_cases same : object = touched
        · rw [same, own]
          exact ⟨fun _ => ⟨made, last⟩, fun _ => Or.inl rfl⟩
        · rw [← others object same]
          exact ⟨fun either => either.resolve_left same, Or.inr⟩
      next more =>
        refine ⟨fun object => ?_, once⟩
        by_cases same : object = touched
        · rw [same, own]
          exact ⟨fun member => absurd member stays, fun given => absurd given.2 more⟩
        · exact others object same
  | _ => exact ⟨gone, once⟩

theorem run_invariant (isOrdinary : ordinary action outcome)
    (calm : ∀ object, action = .closeSocket object →
      ∀ todo ∈ lives.threads, ∀ other ∈ todo, other.creates? ≠ some object) :
    ((lives.change change).goto i (front ++ rest)).Invariant := by
  obtain ⟨gone, once⟩ := invariant.run_gone i action rest outcome change front here effects
  have next := change_nextObject lives change
  refine ⟨invariant.run_counted i action rest outcome change front here effects isOrdinary,
    invariant.run_covered i action rest outcome change front here effects,
    fun todo member other inTodo object creates => ?_,
    fun todo member handle object inTodo => ?_,
    invariant.run_mapped i action rest outcome change front here effects, ?_, ?_, once⟩
  · obtain ⟨same, before, thread, inBefore⟩ := run_creating i action rest outcome change front
      here effects calm todo member other inTodo object creates
    exact same ▸ invariant.creating before thread other inBefore object creates
  · obtain ⟨same, before, thread, inBefore⟩ := run_creating i action rest outcome change front
      here effects calm todo member _ inTodo object rfl
    exact same.trans (invariant.inserting before thread handle object inBefore)
  · intro object unmade
    exact invariant.run_fresh i action rest outcome change front here effects object
      (next ▸ unmade)
  · intro object
    change object ∈ (lives.change change).deleted ↔ object < (lives.change change).nextObject ∧ _
    rw [next]
    exact gone object

end Run

theorem taken_up (i : Nat) (before todo : List LifeAction) (receives sends packets : List Nat)
    (here : lives.threads[i]? = some before)
    (balanced : ∀ object, receives.count object + sends.count object + packets.count object +
        held LifeAction.reference? object todo =
      lives.receives.count object + lives.sends.count object + lives.packets.count object +
        held LifeAction.reference? object before)
    (covered : Covered LifeAction.reference? LifeAction.uses? todo)
    (made : ∀ action ∈ todo, action ∈ before ∨ action.creates? = none)
    (kept : ∀ action ∈ before, action ∈ todo) :
    ({ lives with receives := receives, sends := sends, packets := packets }.goto i
      todo).Invariant := by
  have was : ∀ other ∈ lives.threads.set i todo, ∀ action ∈ other, ∀ object,
      action.creates? = some object → ∃ thread ∈ lives.threads, action ∈ thread := by
    intro other member action inOther object creates
    rcases List.mem_or_eq_of_mem_set member with thread | same
    · exact ⟨other, thread, inOther⟩
    · rw [same] at inOther
      refine ⟨before, List.mem_of_getElem? here, (made action inOther).resolve_right ?_⟩
      rw [creates]
      exact Option.some_ne_none object
  refine ⟨fun object => ?_, fun other member => ?_,
    fun other member action inOther object creates => ?_,
    fun other member handle object inOther => ?_, fun handle object mapped => ?_,
    invariant.fresh, invariant.gone, invariant.once⟩
  · have counted := invariant.counted object
    have moved := total_set (held LifeAction.reference? object) lives.threads i before todo here
    have now := balanced object
    rw [holders, outside] at counted ⊢
    change lives.refcount object = (((lives.hSocket object).isSome.toNat + receives.count object +
      sends.count object + packets.count object + lives.leaked.count object +
        total (held LifeAction.reference? object) (lives.threads.set i todo) : Nat) : Int)
    omega
  · rcases List.mem_or_eq_of_mem_set member with thread | same
    · exact invariant.covered other thread
    · rw [same]
      exact covered
  · obtain ⟨thread, isThread, inThread⟩ := was other member action inOther object creates
    exact invariant.creating thread isThread action inThread object creates
  · obtain ⟨thread, isThread, inThread⟩ := was other member _ inOther object rfl
    exact invariant.inserting thread isThread handle object inThread
  · rcases invariant.mapped handle object mapped with isOpen | ⟨other, thread, removes⟩
    · exact Or.inl isOpen
    · obtain ⟨j, there⟩ := List.mem_iff_getElem?.mp thread
      refine Or.inr ?_
      by_cases same : j = i
      · rw [same, here] at there
        cases there
        exact ⟨todo, todo_mem_goto i before todo here, kept _ removes⟩
      · exact ⟨other, other_mem_goto i j todo other same there, removes⟩

omit invariant in
theorem count_taken (objects : List Nat) (object other : Nat) (member : object ∈ objects) :
    objects.count other = (objects.erase object).count other + share other (some object) := by
  rw [(List.perm_cons_erase member).count_eq, List.count_cons, share]
  simp only [beq_iff_eq, Option.some.injEq]

/-- A callback gets the reference of what is done. -/
theorem callback_invariant (i object : Nat) (done : Nat → LifeAction) (success : Bool)
    (receives sends packets : List Nat) (idle : lives.threads[i]? = some [])
    (about : (done object).object? = some object ∧ (done object).reference? = none ∧
      (done object).creates? = none)
    (taken : ∀ other, receives.count other + sends.count other + packets.count other +
        share other (some object) =
      lives.receives.count other + lives.sends.count other + lives.packets.count other) :
    ({ lives with receives := receives, sends := sends, packets := packets }.callback i object done
      success).Invariant := by
  let first := if success then done object else .closeSocket object
  have ofFirst : first.object? = some object ∧ first.reference? = none ∧
      first.creates? = none := by
    cases success with
    | true => exact about
    | false => exact ⟨rfl, rfl, rfl⟩
  have counts : ∀ other, held LifeAction.reference? other [first, .releaseRef object] =
      share other (some object) := by
    intro other
    rw [held_cons, held_cons, held_nil, ofFirst.2.1, if_neg (Option.some_ne_none other).symm,
      Nat.zero_add]
    rfl
  refine invariant.taken_up i [] [first, .releaseRef object] receives sends packets idle
    (fun other => ?_) ⟨fun other uses => ?_, fun other uses => ?_, trivial⟩
    (fun action member => ?_) (List.forall_mem_nil _)
  · rw [counts, held_nil, taken]
    rfl
  · have same := ofFirst.1.symm.trans (first.object_of_uses other uses)
    rw [counts, share, if_pos same]
    exact Nat.one_pos
  · have same : LifeAction.reference? (.releaseRef object) = some other := uses
    rw [held_cons, held_nil, if_pos same]
    exact Nat.one_pos
  · rcases List.mem_cons.mp member with isFirst | behind
    · exact Or.inr (isFirst ▸ ofFirst.2.2)
    · rw [List.mem_singleton.mp behind]
      exact Or.inr rfl

theorem accept_invariant (i handle : Nat) (idle : lives.threads[i]? = some []) :
    ({ lives with
        refcount := Function.update lives.refcount lives.nextObject 1
        hSocket := Function.update lives.hSocket lives.nextObject (some handle)
        opened := Function.update lives.opened handle true
        nextObject := lives.nextObject + 1 }.goto i
          [.insertSocket handle lives.nextObject, .addRef lives.nextObject]).Invariant := by
  let made := lives.nextObject
  let todo : List LifeAction := [.insertSocket handle made, .addRef made]
  have zero : lives.refcount made = 0 := invariant.fresh made (Nat.le_refl _)
  have none_ : lives.holders made = 0 := by
    have counted := invariant.counted made
    omega
  have closed : lives.hSocket made = none := by
    cases isOpen : lives.hSocket made with
    | none => rfl
    | some _ =>
        have alive := alive_of_open lives made (Option.isSome_of_eq_some isOpen)
        omega
  have older : ∀ object handle, lives.hSocket object = some handle → object ≠ made := by
    intro object handle isOpen same
    rw [same, closed] at isOpen
    cases isOpen
  have ofTodo : ∀ action ∈ todo, ∀ object, action.creates? = some object → object = made := by
    intro action member object creates
    rcases List.mem_cons.mp member with first | second
    · rw [first] at creates
      exact (Option.some.inj creates).symm
    · rw [List.mem_singleton.mp second] at creates
      exact (Option.some.inj creates).symm
  refine ⟨fun object => ?_, fun other member => ?_,
    fun other member action inOther object creates => ?_,
    fun other member inserted object inOther => ?_, fun mappedTo object mapped => ?_,
    fun object unmade => ?_, fun object => ?_, invariant.once⟩
  · have counted := invariant.counted object
    have moved := total_set (held LifeAction.reference? object) lives.threads i [] todo idle
    have nothing : held LifeAction.reference? object todo = 0 := rfl
    rw [holders, outside] at counted none_ ⊢
    change Function.update lives.refcount made 1 object =
      (((Function.update lives.hSocket made (some handle) object).isSome.toNat +
        lives.receives.count object + lives.sends.count object + lives.packets.count object +
          lives.leaked.count object +
            total (held LifeAction.reference? object) (lives.threads.set i todo) : Nat) : Int)
    rw [held_nil, nothing] at moved
    by_cases same : object = made
    · subst same
      rw [Function.update_self, Function.update_self, Option.isSome_some, Bool.toNat_true]
      omega
    · rw [Function.update_of_ne same, Function.update_of_ne same]
      omega
  · rcases List.mem_or_eq_of_mem_set member with thread | same
    · exact invariant.covered other thread
    · rw [same]
      exact ⟨fun object uses => absurd uses.symm (Option.some_ne_none object),
        fun object uses => absurd uses.symm (Option.some_ne_none object), trivial⟩
  · change (Function.update lives.hSocket made (some handle) object).isSome
    by_cases same : object = made
    · rw [same, Function.update_self]
      rfl
    · rw [Function.update_of_ne same]
      rcases List.mem_or_eq_of_mem_set member with thread | isTodo
      · exact invariant.creating other thread action inOther object creates
      · rw [isTodo] at inOther
        exact absurd (ofTodo action inOther object creates) same
  · change Function.update lives.hSocket made (some handle) object = some inserted
    rcases List.mem_or_eq_of_mem_set member with thread | isTodo
    · have isOpen := invariant.inserting other thread inserted object inOther
      rw [Function.update_of_ne (older object inserted isOpen)]
      exact isOpen
    · rw [isTodo] at inOther
      rcases List.mem_cons.mp inOther with first | second
      · cases first
        exact Function.update_self _ _ _
      · exact absurd (List.mem_singleton.mp second) LifeAction.noConfusion
  · change Function.update lives.hSocket made (some handle) object = some mappedTo ∨ _
    rcases invariant.mapped mappedTo object mapped with isOpen | ⟨other, thread, removes⟩
    · rw [Function.update_of_ne (older object mappedTo isOpen)]
      exact Or.inl isOpen
    · obtain ⟨j, there⟩ := List.mem_iff_getElem?.mp thread
      refine Or.inr ⟨other, other_mem_goto i j todo other (fun same => ?_) there, removes⟩
      rw [same, idle] at there
      cases there
      cases removes
  · change Function.update lives.refcount made 1 object = 0
    have behind : made + 1 ≤ object := unmade
    rw [Function.update_of_ne (by omega)]
    exact invariant.fresh object (by omega)
  · change object ∈ lives.deleted ↔
      object < made + 1 ∧ Function.update lives.refcount made 1 object = 0
    rw [invariant.gone]
    by_cases same : object = made
    · rw [same, Function.update_self]
      omega
    · rw [Function.update_of_ne same]
      omega

theorem findSocket_invariant (i handle : Nat) (timer : Bool) (todo : List LifeAction)
    (here : lives.threads[i]? = some todo) :
    (lives.goto i (.findSocket handle timer :: todo)).Invariant := by
  refine invariant.taken_up i todo (.findSocket handle timer :: todo) lives.receives lives.sends
    lives.packets here (fun object => ?_)
    ⟨fun object uses => absurd uses.symm (Option.some_ne_none object),
      invariant.covered todo (List.mem_of_getElem? here)⟩
    (fun action member => ?_) (fun action member => List.mem_cons_of_mem _ member)
  · rw [held_cons]
    rfl
  · rcases List.mem_cons.mp member with first | behind
    · rw [first]
      exact Or.inr rfl
    · exact Or.inl behind

end Invariant

theorem ordinary_of_orderly (lives : ClientLives) (i : Nat) (action : LifeAction)
    (rest : List LifeAction) (outcome : LifeOutcome)
    (here : lives.threads[i]? = some (action :: rest))
    (isOrderly : orderly lives (.run i outcome) = true) : ordinary action outcome := by
  cases action with
  | onWriteCallback object =>
      cases outcome with
      | fails =>
          simp only [orderly, here] at isOrderly
          exact absurd isOrderly (by decide)
      | _ => trivial
  | _ => trivial

theorem calm_of_orderly (lives : ClientLives) (i : Nat) (action : LifeAction)
    (rest : List LifeAction) (outcome : LifeOutcome)
    (here : lives.threads[i]? = some (action :: rest))
    (isOrderly : orderly lives (.run i outcome) = true) (object : Nat)
    (closes : action = .closeSocket object) (todo : List LifeAction)
    (thread : todo ∈ lives.threads) (other : LifeAction) (member : other ∈ todo) :
    other.creates? ≠ some object := by
  subst closes
  simp only [orderly, here, List.all_eq_true, bne_iff_ne] at isOrderly
  exact isOrderly todo thread other member

theorem step_invariant (lives : ClientLives) (event : LifeEvent) (next : ClientLives)
    (invariant : lives.Invariant) (isOrderly : orderly lives event = true)
    (stepped : lives.step event = some next) : next.Invariant := by
  cases event with
  | accept i handle =>
      simp only [step] at stepped
      split at stepped
      next enabled =>
        cases stepped
        exact invariant.accept_invariant i handle enabled.1
      · cases stepped
  | findSocket i handle timer =>
      simp only [step] at stepped
      split at stepped
      next todo here =>
        cases stepped
        exact invariant.findSocket_invariant i handle timer todo here
      · cases stepped
  | run i outcome =>
      simp only [step] at stepped
      split at stepped
      next action rest here =>
        obtain ⟨⟨change, front⟩, effects, rfl⟩ := Option.map_eq_some_iff.mp stepped
        exact invariant.run_invariant i action rest outcome change front here effects
          (ordinary_of_orderly lives i action rest outcome here isOrderly)
          (calm_of_orderly lives i action rest outcome here isOrderly)
      · cases stepped
  | received i object success =>
      simp only [step] at stepped
      split at stepped
      next enabled =>
        cases stepped
        refine invariant.callback_invariant i object _ success _ _ _ enabled.1 ⟨rfl, rfl, rfl⟩
          (fun other => ?_)
        rw [Invariant.count_taken lives.receives object other enabled.2]
        omega
      · cases stepped
  | sent i object success =>
      simp only [step] at stepped
      split at stepped
      next enabled =>
        cases stepped
        refine invariant.callback_invariant i object _ success _ _ _ enabled.1 ⟨rfl, rfl, rfl⟩
          (fun other => ?_)
        rw [Invariant.count_taken lives.sends object other enabled.2]
        omega
      · cases stepped
  | posted i object =>
      simp only [step] at stepped
      split at stepped
      next enabled =>
        cases stepped
        refine invariant.callback_invariant i object _ true _ _ _ enabled.1 ⟨rfl, rfl, rfl⟩
          (fun other => ?_)
        rw [Invariant.count_taken lives.packets object other enabled.2]
        omega
      · cases stepped

/-- As long as `Initialize` comes before anyone closes the connection and sends are whole, no
thread ever touches an object that has been deleted, and each is deleted once, with the last
reference to it. -/
theorem safe_throughout (threads : Nat) (events : List LifeEvent)
    (guarded : machine.Guarded (fun lives event => orderly lives event = true) (start threads)
      events) :
    machine.Throughout Safe (start threads) events :=
  machine.throughout_of_guarded Invariant Safe (fun lives event => orderly lives event = true)
    step_invariant (fun _ invariant => invariant.safe) events (start threads)
    (start_invariant threads) guarded

def life : List LifeEvent :=
  [.accept 0 4, .run 0 .goesOn, .run 0 .goesOn, .run 0 .goesOn, .run 0 .goesOn, .run 0 .goesOn,
    .run 0 .goesOn, .run 0 .goesOn, .findSocket 1 4 false, .run 1 .goesOn, .received 0 0 false,
    .run 0 .goesOn, .run 0 .goesOn, .run 0 .goesOn, .run 0 .goesOn, .run 0 .goesOn, .run 1 .sends,
    .run 1 .fails, .run 1 .goesOn, .run 1 .goesOn]

theorem safe_throughout_life : machine.Throughout Safe (start 2) life :=
  safe_throughout 2 life ((machine.guarded_iff_taken _ life (start 2)).mpr (by decide))

-- The last to let go was the sender.
example : (machine.run (start 2) life).map (fun lives => (lives.refcount 0, lives.deleted)) =
    some (0, [0]) := by
  decide

-- A timer that goes off before `Initialize` leaves it with an object that is gone.
example : (machine.run (start 2)
    [.accept 0 4, .run 0 .goesOn, .findSocket 1 4 true, .run 1 .goesOn, .run 1 .closes,
      .run 1 .goesOn, .run 1 .goesOn, .run 1 .goesOn, .run 1 .goesOn, .run 1 .goesOn]).map
      (fun lives => (lives.threads[0]?, lives.deleted)) = some (some [.addRef 0], [0]) := by
  decide

end ClientLives

end AuthServer
