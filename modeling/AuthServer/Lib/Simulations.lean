/-
One machine at two levels of detail.

A relation between the states of a detailed machine and those of a plain one
is a simulation when every detailed step is answered by some run of the plain
one, which may be empty.  Then every detailed run is answered, and what holds
throughout all plain runs is seen throughout the detailed ones.

Nothing here depends on particular machines.
-/

import AuthServer.Lib.EventRuns

set_option autoImplicit false

namespace EventRuns

universe u v w x

variable {State : Type u} {Event : Type v} {Plain : Type w} {PlainEvent : Type x}

theorem Machine.run_append (machine : Machine State Event) (before after : List Event)
    (state middle : State) (ran : machine.run state before = some middle) :
    machine.run state (before ++ after) = machine.run middle after := by
  induction before generalizing state with
  | nil =>
      rw [Machine.run, Option.some.injEq] at ran
      rw [List.nil_append, ran]
  | cons event rest ih =>
      obtain ⟨next, stepped, later⟩ := machine.run_cons_cases state middle event rest ran
      rw [List.cons_append, Machine.run, stepped]
      exact ih next later

theorem Machine.Throughout.final {machine : Machine State Event} {good : State → Prop}
    {events : List Event} {state final : State} (throughout : machine.Throughout good state events)
    (ran : machine.run state events = some final) : good final := by
  induction events generalizing state with
  | nil =>
      rw [Machine.run, Option.some.injEq] at ran
      exact ran ▸ throughout
  | cons event rest ih =>
      obtain ⟨next, stepped, later⟩ := machine.run_cons_cases state final event rest ran
      exact ih (throughout.2 next stepped) later

structure Simulation (detailed : Machine State Event) (plain : Machine Plain PlainEvent)
    (related : State → Plain → Prop) : Prop where
  answered : ∀ state event next shadow, related state shadow →
    detailed.step state event = some next →
    ∃ events after, plain.run shadow events = some after ∧ related next after

namespace Simulation

variable {detailed : Machine State Event} {plain : Machine Plain PlainEvent}
  {related : State → Plain → Prop}

theorem run (simulation : Simulation detailed plain related) (events : List Event)
    (state final : State) (shadow : Plain) (start : related state shadow)
    (ran : detailed.run state events = some final) :
    ∃ answers after, plain.run shadow answers = some after ∧ related final after := by
  induction events generalizing state shadow with
  | nil =>
      rw [Machine.run, Option.some.injEq] at ran
      exact ⟨[], shadow, rfl, ran ▸ start⟩
  | cons event rest ih =>
      obtain ⟨next, stepped, later⟩ := detailed.run_cons_cases state final event rest ran
      obtain ⟨first, middle, ranFirst, reached⟩ :=
        simulation.answered state event next shadow start stepped
      obtain ⟨second, after, ranSecond, ended⟩ := ih next middle reached later
      refine ⟨first ++ second, after, ?_, ended⟩
      rw [plain.run_append first second shadow middle ranFirst]
      exact ranSecond

/-- What every plain run keeps, seen through the relation, every detailed run keeps. -/
theorem throughout (simulation : Simulation detailed plain related) (good : State → Prop)
    (kept : Plain → Prop) (seen : ∀ state shadow, related state shadow → kept shadow → good state)
    (events : List Event) (state : State) (shadow : Plain) (start : related state shadow)
    (always : ∀ answers, plain.Throughout kept shadow answers) :
    detailed.Throughout good state events := by
  have keptAfter : ∀ answers after, plain.run shadow answers = some after → kept after :=
    fun answers _ ran => (always answers).final ran
  clear always
  induction events generalizing state shadow with
  | nil => exact seen state shadow start (keptAfter [] shadow rfl)
  | cons event rest ih =>
      refine ⟨seen state shadow start (keptAfter [] shadow rfl), fun next stepped => ?_⟩
      obtain ⟨first, middle, ranFirst, reached⟩ :=
        simulation.answered state event next shadow start stepped
      refine ih next middle reached fun answers after ran => ?_
      refine keptAfter (first ++ answers) after ?_
      rw [plain.run_append first answers shadow middle ranFirst]
      exact ran

end Simulation

end EventRuns
