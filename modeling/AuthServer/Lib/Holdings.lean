/-
Threads as what they have still to do, and the references that they hold while they do it.

Some actions hold a reference to an object until they are done, and some touch an object that
another action of the same thread must keep alive.  A thread is covered when, wherever it
stands, one of its actions from there on holds what the first one touches.
-/

import AuthServer.Lib.Processes

set_option autoImplicit false

namespace Holdings

universe u v

variable {Action : Type u} {Object : Type v} [DecidableEq Object]

section Held

variable (reference : Action → Option Object)

def held (object : Object) (todo : List Action) : Nat :=
  todo.countP fun action => reference action = some object

@[simp] theorem held_nil (object : Object) : held reference object [] = 0 := rfl

theorem held_cons (object : Object) (action : Action) (rest : List Action) :
    held reference object (action :: rest) =
      held reference object rest + if reference action = some object then 1 else 0 := by
  rw [held, List.countP_cons]
  simp only [decide_eq_true_eq]
  rfl

theorem held_append (object : Object) (front rest : List Action) :
    held reference object (front ++ rest) =
      held reference object front + held reference object rest :=
  List.countP_append

/-- What all threads hold, where one of them has done its first action and goes on with others. -/
theorem total_proceed (object : Object) (threads : List (List Action)) (i : Nat)
    (action : Action) (rest front : List Action) (here : threads[i]? = some (action :: rest)) :
    Processes.total (held reference object) (threads.set i (front ++ rest)) +
        held reference object [action] =
      Processes.total (held reference object) threads + held reference object front := by
  have moved := Processes.total_set (held reference object) threads i (action :: rest)
    (front ++ rest) here
  rw [held_append, held_cons] at moved
  rw [held_cons, held_nil]
  omega

end Held

section Covered

variable (reference touches : Action → Option Object)

def Covered : List Action → Prop
  | [] => True
  | action :: rest =>
      (∀ object, touches action = some object → 0 < held reference object (action :: rest)) ∧
        Covered rest

variable {reference touches}

theorem Covered.holds {todo : List Action} (covered : Covered reference touches todo)
    (action : Action) (member : action ∈ todo) (object : Object)
    (touched : touches action = some object) : 0 < held reference object todo := by
  induction todo with
  | nil => cases member
  | cons first rest ih =>
      rcases List.mem_cons.mp member with same | later
      · exact covered.1 object (same ▸ touched)
      · rw [held_cons]
        exact Nat.add_pos_left (ih covered.2 later) _

/-- A thread may take up actions that hold for themselves what they touch. -/
theorem Covered.append {front rest : List Action} (own : Covered reference touches front)
    (covered : Covered reference touches rest) : Covered reference touches (front ++ rest) := by
  induction front with
  | nil => exact covered
  | cons first others ih =>
      refine ⟨fun object touched => ?_, ih own.2⟩
      change 0 < held reference object ((first :: others) ++ rest)
      rw [held_append]
      exact Nat.add_pos_left (own.1 object touched) _

theorem Covered.append_of_held {front rest : List Action} (object : Object)
    (behind : 0 < held reference object rest)
    (only : ∀ action ∈ front, ∀ other, touches action = some other → other = object)
    (covered : Covered reference touches rest) : Covered reference touches (front ++ rest) := by
  induction front with
  | nil => exact covered
  | cons first others ih =>
      obtain ⟨own, later⟩ := List.forall_mem_cons.mp only
      refine ⟨fun other touched => ?_, ih later⟩
      change 0 < held reference other ((first :: others) ++ rest)
      rw [own other touched, held_append]
      exact Nat.add_pos_right _ behind

end Covered

end Holdings
