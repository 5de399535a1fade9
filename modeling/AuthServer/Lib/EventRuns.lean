/-
Machines that move by events, and all their runs.

A step is partial: an event that the environment cannot produce in a state has
no successor.  The rules below turn what one step preserves into what every
run preserves, with or without a condition on the steps taken.

Nothing here depends on a particular state or event type.
-/

import Mathlib.Data.List.Basic

set_option autoImplicit false

namespace EventRuns

universe u v

structure Machine (State : Type u) (Event : Type v) where
  step : State → Event → Option State

variable {State : Type u} {Event : Type v}

namespace Machine

def run (machine : Machine State Event) : State → List Event → Option State
  | state, [] => some state
  | state, event :: rest =>
      match machine.step state event with
      | none => none
      | some next => machine.run next rest

/-- Every step that is taken along the events meets the condition. -/
def Guarded (machine : Machine State Event) (guard : State → Event → Prop) :
    State → List Event → Prop
  | _, [] => True
  | state, event :: rest =>
      ∀ next, machine.step state event = some next →
        guard state event ∧ machine.Guarded guard next rest

/-- The property holds in every state along the events, both ends included. -/
def Throughout (machine : Machine State Event) (good : State → Prop) :
    State → List Event → Prop
  | state, [] => good state
  | state, event :: rest =>
      good state ∧ ∀ next, machine.step state event = some next →
        machine.Throughout good next rest

def trace (machine : Machine State Event) : State → List Event → List State
  | state, [] => [state]
  | state, event :: rest =>
      state ::
        match machine.step state event with
        | none => []
        | some next => machine.trace next rest

/-- A property that can be decided of states can be decided of a given run. -/
theorem throughout_iff_trace (machine : Machine State Event) (good : State → Prop)
    (events : List Event) (state : State) :
    machine.Throughout good state events ↔ ∀ along ∈ machine.trace state events, good along := by
  induction events generalizing state with
  | nil =>
      rw [trace, List.forall_mem_singleton]
      exact Iff.rfl
  | cons event rest ih =>
      rw [trace, List.forall_mem_cons]
      cases found : machine.step state event with
      | none =>
          constructor
          · intro throughout
            exact ⟨throughout.1, List.forall_mem_nil _⟩
          · intro given
            refine ⟨given.1, fun next step => ?_⟩
            rw [found] at step
            cases step
      | some next =>
          rw [← ih next]
          constructor
          · intro throughout
            exact ⟨throughout.1, throughout.2 next found⟩
          · intro given
            refine ⟨given.1, fun other step => ?_⟩
            rw [found] at step
            obtain rfl := Option.some.inj step
            exact given.2

def taken (machine : Machine State Event) : State → List Event → List (State × Event)
  | _, [] => []
  | state, event :: rest =>
      match machine.step state event with
      | none => []
      | some next => (state, event) :: machine.taken next rest

theorem guarded_iff_taken (machine : Machine State Event) (guard : State → Event → Prop)
    (events : List Event) (state : State) :
    machine.Guarded guard state events ↔
      ∀ step ∈ machine.taken state events, guard step.1 step.2 := by
  induction events generalizing state with
  | nil => exact ⟨fun _ => List.forall_mem_nil _, fun _ => trivial⟩
  | cons event rest ih =>
      rw [taken]
      cases found : machine.step state event with
      | none =>
          constructor
          · intro _
            exact List.forall_mem_nil _
          · intro _ next step
            rw [found] at step
            cases step
      | some next =>
          rw [List.forall_mem_cons, ← ih next]
          constructor
          · intro guarded
            exact guarded next found
          · intro given other step
            rw [found] at step
            obtain rfl := Option.some.inj step
            exact given

theorem run_cons_cases (machine : Machine State Event) (state final : State)
    (event : Event) (rest : List Event)
    (ran : machine.run state (event :: rest) = some final) :
    ∃ next, machine.step state event = some next ∧
      machine.run next rest = some final := by
  rw [run] at ran
  cases found : machine.step state event with
  | none =>
      rw [found] at ran
      contradiction
  | some next =>
      rw [found] at ran
      exact ⟨next, rfl, ran⟩

/-- What every step preserves holds where a run ends. -/
theorem run_invariant (machine : Machine State Event) (invariant : State → Prop)
    (preserved : ∀ state event next, invariant state →
      machine.step state event = some next → invariant next)
    (events : List Event) (state final : State) (holds : invariant state)
    (ran : machine.run state events = some final) : invariant final := by
  induction events generalizing state with
  | nil =>
      rw [run, Option.some.injEq] at ran
      rw [← ran]
      exact holds
  | cons event rest ih =>
      obtain ⟨next, stepped, later⟩ := machine.run_cons_cases state final event rest ran
      exact ih next (preserved state event next holds stepped) later

/-- Where every step of some events takes from a measure, a run of them is no longer than
the measure allows. -/
theorem run_measured (machine : Machine State Event) (own : Event → Prop)
    (invariant : State → Prop) (measure : State → Nat)
    (preserved : ∀ state event next, invariant state → own event →
      machine.step state event = some next → invariant next ∧ measure next < measure state)
    (events : List Event) (state final : State) (holds : invariant state)
    (owned : ∀ event ∈ events, own event) (ran : machine.run state events = some final) :
    invariant final ∧ measure final + events.length ≤ measure state := by
  induction events generalizing state with
  | nil =>
      rw [run, Option.some.injEq] at ran
      rw [← ran]
      exact ⟨holds, Nat.le_refl _⟩
  | cons event rest ih =>
      obtain ⟨next, stepped, later⟩ := machine.run_cons_cases state final event rest ran
      obtain ⟨here, owned⟩ := List.forall_mem_cons.mp owned
      obtain ⟨holds, less⟩ := preserved state event next holds here stepped
      obtain ⟨atEnd, bounded⟩ := ih next holds owned later
      refine ⟨atEnd, ?_⟩
      rw [List.length_cons]
      omega

/-- Where some events take one from a measure each and all others leave it, a run has as many
of them as the measure has gone down by. -/
theorem run_counted (machine : Machine State Event) (counts : Event → Bool)
    (invariant : State → Prop) (measure : State → Nat)
    (preserved : ∀ state event next, invariant state → machine.step state event = some next →
      invariant next ∧ measure next + (counts event).toNat = measure state)
    (events : List Event) (state final : State) (holds : invariant state)
    (ran : machine.run state events = some final) :
    invariant final ∧ measure final + events.countP counts = measure state := by
  induction events generalizing state with
  | nil =>
      rw [run, Option.some.injEq] at ran
      rw [← ran]
      exact ⟨holds, rfl⟩
  | cons event rest ih =>
      obtain ⟨next, stepped, later⟩ := machine.run_cons_cases state final event rest ran
      obtain ⟨holds, moved⟩ := preserved state event next holds stepped
      obtain ⟨atEnd, counted⟩ := ih next holds later
      refine ⟨atEnd, ?_⟩
      rw [List.countP_cons, ← moved, ← counted]
      cases counts event with
      | false => rfl
      | true => rfl

/-- What every step under the condition preserves holds throughout every run
whose steps all meet the condition. -/
theorem throughout_of_guarded (machine : Machine State Event)
    (invariant good : State → Prop) (guard : State → Event → Prop)
    (preserved : ∀ state event next, invariant state → guard state event →
      machine.step state event = some next → invariant next)
    (sound : ∀ state, invariant state → good state)
    (events : List Event) (state : State) (holds : invariant state)
    (guarded : machine.Guarded guard state events) :
    machine.Throughout good state events := by
  induction events generalizing state with
  | nil => exact sound state holds
  | cons event rest ih =>
      refine ⟨sound state holds, fun next step => ?_⟩
      obtain ⟨atStep, later⟩ := guarded next step
      exact ih next (preserved state event next holds atStep step) later

theorem throughout_of_guarded_within (machine : Machine State Event)
    (domain invariant good : State → Prop) (guard : State → Event → Prop)
    (preserved : ∀ state event next, invariant state → domain state → domain next →
      guard state event → machine.step state event = some next → invariant next)
    (sound : ∀ state, invariant state → domain state → good state)
    (events : List Event) (state : State) (holds : invariant state)
    (within : machine.Throughout domain state events)
    (guarded : machine.Guarded guard state events) :
    machine.Throughout good state events := by
  induction events generalizing state with
  | nil => exact sound state holds within
  | cons event rest ih =>
      refine ⟨sound state holds within.1, fun next step => ?_⟩
      obtain ⟨atStep, later⟩ := guarded next step
      have behind := within.2 next step
      have inDomain : domain next := by
        cases rest with
        | nil => exact behind
        | cons other more => exact behind.1
      exact ih next (preserved state event next holds within.1 inDomain atStep step)
        behind later

theorem guarded_of_guarded (machine : Machine State Event) (invariant : State → Prop)
    (guard other : State → Event → Prop)
    (preserved : ∀ state event next, invariant state → guard state event →
      machine.step state event = some next → invariant next)
    (implies : ∀ state event next, invariant state → guard state event →
      machine.step state event = some next → other state event)
    (events : List Event) (state : State) (holds : invariant state)
    (guarded : machine.Guarded guard state events) : machine.Guarded other state events := by
  induction events generalizing state with
  | nil => trivial
  | cons event rest ih =>
      intro next step
      obtain ⟨atStep, later⟩ := guarded next step
      exact ⟨implies state event next holds atStep step,
        ih next (preserved state event next holds atStep step) later⟩

theorem guarded_of_step (machine : Machine State Event) (guard : State → Event → Prop)
    (enabled : ∀ state next event, machine.step state event = some next → guard state event)
    (events : List Event) (state : State) : machine.Guarded guard state events := by
  induction events generalizing state with
  | nil => trivial
  | cons event rest ih =>
      intro next step
      exact ⟨enabled state next event step, ih next⟩

theorem guarded_congr (machine : Machine State Event) (guard other : State → Event → Prop)
    (same : ∀ state event, guard state event ↔ other state event) (events : List Event)
    (state : State) :
    machine.Guarded guard state events ↔ machine.Guarded other state events := by
  induction events generalizing state with
  | nil => exact Iff.rfl
  | cons event rest ih =>
      apply forall_congr'
      intro next
      rw [same, ih next]

/-- When moreover every step outside the condition ends in a bad state, the
condition is exact. -/
theorem throughout_iff_guarded (machine : Machine State Event)
    (invariant good : State → Prop) (guard : State → Event → Prop)
    (preserved : ∀ state event next, invariant state → guard state event →
      machine.step state event = some next → invariant next)
    (sound : ∀ state, invariant state → good state)
    (exact_ : ∀ state event next, invariant state →
      machine.step state event = some next → good next → guard state event)
    (events : List Event) (state : State) (holds : invariant state) :
    machine.Throughout good state events ↔ machine.Guarded guard state events := by
  constructor
  · intro throughout
    induction events generalizing state with
    | nil => trivial
    | cons event rest ih =>
        intro next step
        have later := throughout.2 next step
        have nextGood : good next := by
          cases rest with
          | nil => exact later
          | cons other more => exact later.1
        have atStep := exact_ state event next holds step nextGood
        exact ⟨atStep, ih next (preserved state event next holds atStep step) later⟩
  · exact machine.throughout_of_guarded invariant good guard preserved sound
      events state holds

end Machine

end EventRuns
