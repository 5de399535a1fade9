/-
Tables of processes of which one moves at a time.

A process is known by its place in the table.  What the processes hold is
counted by a weight, and the total changes with the one that moves.
-/

import Mathlib.Data.List.Basic
import Mathlib.Data.List.Perm.Basic

set_option autoImplicit false

namespace Processes

universe u

variable {Process : Type u}

def total (weight : Process → Nat) : List Process → Nat
  | [] => 0
  | process :: rest => weight process + total weight rest

theorem lookup_set (processes : List Process) (i j : Nat) (moved process : Process)
    (found : (processes.set i moved)[j]? = some process) :
    j = i ∧ process = moved ∨ j ≠ i ∧ processes[j]? = some process := by
  by_cases same : i = j
  · subst same
    rw [List.getElem?_set_self'] at found
    obtain ⟨_, _, isMoved⟩ := Option.map_eq_some_iff.mp found
    exact Or.inl ⟨rfl, isMoved.symm⟩
  · rw [List.getElem?_set_ne same] at found
    exact Or.inr ⟨Ne.symm same, found⟩

section Shares

universe v

variable {Share : Type v} (share : Process → Option Share)

theorem filterMap_set_perm (processes : List Process) (i : Nat) (process moved : Process)
    (here : processes[i]? = some process) :
    ((share process).toList ++ (processes.set i moved).filterMap share).Perm
      ((share moved).toList ++ processes.filterMap share) := by
  induction processes generalizing i with
  | nil => cases here
  | cons head rest ih =>
      have front : ∀ (first : Process) (others : List Process),
          (first :: others).filterMap share = (share first).toList ++ others.filterMap share := by
        intro first others
        rw [List.filterMap_cons]
        cases share first with
        | none => rfl
        | some _ => rfl
      cases i with
      | zero =>
          cases here
          rw [List.set_cons_zero, front, front, ← List.append_assoc, ← List.append_assoc]
          exact List.perm_append_comm.append_right _
      | succ i =>
          rw [List.set_cons_succ, front, front, ← List.append_assoc, ← List.append_assoc]
          have taken := (ih i here).append_left (share head).toList
          rw [← List.append_assoc, ← List.append_assoc] at taken
          exact (List.perm_append_comm.append_right _).trans
            (taken.trans (List.perm_append_comm.append_right _))

end Shares

section Weight

variable (weight : Process → Nat)

theorem total_set (processes : List Process) (i : Nat) (process moved : Process)
    (here : processes[i]? = some process) :
    total weight (processes.set i moved) + weight process =
      total weight processes + weight moved := by
  induction processes generalizing i with
  | nil => cases here
  | cons head rest ih =>
      cases i with
      | zero =>
          cases here
          rw [List.set_cons_zero, total, total]
          omega
      | succ i =>
          have later := ih i here
          rw [List.set_cons_succ, total, total]
          omega

theorem le_total (processes : List Process) (i : Nat) (process : Process)
    (here : processes[i]? = some process) : weight process ≤ total weight processes := by
  induction processes generalizing i with
  | nil => cases here
  | cons head rest ih =>
      cases i with
      | zero =>
          cases here
          exact Nat.le_add_right _ _
      | succ i => exact Nat.le_trans (ih i here) (Nat.le_add_left _ _)

theorem add_le_total (processes : List Process) (i j : Nat) (first second : Process)
    (differ : i ≠ j) (atFirst : processes[i]? = some first)
    (atSecond : processes[j]? = some second) :
    weight first + weight second ≤ total weight processes := by
  induction processes generalizing i j with
  | nil => cases atFirst
  | cons head rest ih =>
      cases i with
      | zero =>
          cases j with
          | zero => exact absurd rfl differ
          | succ j =>
              cases atFirst
              exact Nat.add_le_add_left (le_total weight rest j second atSecond) _
      | succ i =>
          cases j with
          | zero =>
              cases atSecond
              rw [Nat.add_comm]
              exact Nat.add_le_add_left (le_total weight rest i first atFirst) _
          | succ j =>
              have later := ih i j (fun same => differ (congrArg Nat.succ same)) atFirst atSecond
              exact Nat.le_trans later (Nat.le_add_left _ _)

theorem total_eq_countP (processes : List Process)
    (light : ∀ process ∈ processes, weight process ≤ 1) :
    total weight processes = processes.countP fun process => 0 < weight process := by
  induction processes with
  | nil => rfl
  | cons head rest ih =>
      have atHead := light head List.mem_cons_self
      rw [total, ih fun process member => light process (List.mem_cons_of_mem head member),
        List.countP_cons]
      simp only [decide_eq_true_eq]
      split
      · omega
      · omega

theorem total_le_length (processes : List Process) (light : ∀ process, weight process ≤ 1) :
    total weight processes ≤ processes.length := by
  induction processes with
  | nil => exact Nat.le_refl 0
  | cons head rest ih =>
      rw [total, List.length_cons, Nat.add_comm]
      exact Nat.add_le_add ih (light head)

theorem total_replicate (count : Nat) (process : Process) (nothing : weight process = 0) :
    total weight (List.replicate count process) = 0 := by
  induction count with
  | zero => rfl
  | succ count ih => rw [List.replicate_succ, total, ih, nothing]

end Weight

end Processes
