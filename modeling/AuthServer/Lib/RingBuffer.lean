/-
Rings of cells that are overwritten oldest first.

New contents go to the tail, which then moves on and wraps around.  Counted back
from the tail, the cells hold what was put last, newest first.
-/

import Mathlib.Logic.Function.Basic

set_option autoImplicit false

namespace RingBuffer

universe u

structure CellRing (Cell : Type u) where
  cells : Nat → Cell
  tail : Nat

namespace CellRing

variable {Cell : Type u} (size : Nat)

def put (ring : CellRing Cell) (cell : Cell) : CellRing Cell :=
  ⟨Function.update ring.cells ring.tail cell, (ring.tail + 1) % size⟩

/-- The place so many steps back from the tail, the nearest being step 0. -/
def back (tail count : Nat) : Nat := (tail + size - 1 - count % size) % size

def newest (ring : CellRing Cell) (count : Nat) : Cell := ring.cells (back size ring.tail count)

theorem back_next (tail : Nat) (inside : tail < size) : back size ((tail + 1) % size) 0 = tail := by
  rw [back, Nat.zero_mod, Nat.sub_zero]
  rcases Nat.lt_or_ge (tail + 1) size with before | last
  · rw [Nat.mod_eq_of_lt before, Nat.add_right_comm, Nat.add_sub_cancel, Nat.add_mod_right,
      Nat.mod_eq_of_lt inside]
  · have same : tail + 1 = size := Nat.le_antisymm inside last
    rw [same, Nat.mod_self, Nat.zero_add, ← same, Nat.add_sub_cancel]
    exact Nat.mod_eq_of_lt (Nat.lt_succ_self tail)

theorem back_step (tail count : Nat) (inside : tail < size) (within : count + 1 < size) :
    back size ((tail + 1) % size) (count + 1) = back size tail count ∧
      back size tail count ≠ tail := by
  have less : count < size := Nat.lt_of_succ_lt within
  rw [back, back, Nat.mod_eq_of_lt within, Nat.mod_eq_of_lt less]
  have wrapped : ∀ place, place < size → (place + size) % size = place := fun place small => by
    rw [Nat.add_mod_right, Nat.mod_eq_of_lt small]
  rcases Nat.lt_or_ge count tail with near | far
  · have here : tail + size - 1 - count = (tail - 1 - count) + size := by omega
    rw [here, wrapped _ (by omega)]
    refine ⟨?_, by omega⟩
    rcases Nat.lt_or_ge (tail + 1) size with before | last
    · have next : tail + 1 + size - 1 - (count + 1) = (tail - 1 - count) + size := by omega
      rw [Nat.mod_eq_of_lt before, next, wrapped _ (by omega)]
    · have same : tail + 1 = size := Nat.le_antisymm inside last
      have next : 0 + size - 1 - (count + 1) = tail - 1 - count := by omega
      rw [same, Nat.mod_self, next]
      exact Nat.mod_eq_of_lt (by omega)
  · have small : tail + size - 1 - count < size := by omega
    rw [Nat.mod_eq_of_lt small]
    refine ⟨?_, by omega⟩
    rcases Nat.lt_or_ge (tail + 1) size with before | last
    · rw [Nat.mod_eq_of_lt before, Nat.mod_eq_of_lt (by omega)]
      omega
    · omega

theorem newest_put_zero (ring : CellRing Cell) (cell : Cell) (inside : ring.tail < size) :
    newest size (ring.put size cell) 0 = cell := by
  rw [newest, put, back_next size ring.tail inside]
  exact Function.update_self ring.tail cell ring.cells

theorem newest_put_succ (ring : CellRing Cell) (cell : Cell) (count : Nat)
    (inside : ring.tail < size) (within : count + 1 < size) :
    newest size (ring.put size cell) (count + 1) = newest size ring count := by
  obtain ⟨same, away⟩ := back_step size ring.tail count inside within
  rw [newest, put, same, newest]
  exact Function.update_of_ne away cell ring.cells

/-- The ring shows the first of the contents, newest first, and is blank behind them. -/
structure Shows (ring : CellRing Cell) (contents : List Cell) (blank : Cell) : Prop where
  inside : ring.tail < size
  shown : ∀ count, count < size → newest size ring count = contents.getD count blank

variable {size}

theorem shows_blank (blank : Cell) (positive : 0 < size) :
    Shows size (⟨fun _ => blank, 0⟩ : CellRing Cell) [] blank :=
  ⟨positive, fun _ _ => rfl⟩

theorem Shows.put {ring : CellRing Cell} {contents : List Cell} {blank : Cell}
    (shows_ : Shows size ring contents blank) (cell : Cell) :
    Shows size (ring.put size cell) (cell :: contents) blank := by
  have positive : 0 < size := Nat.lt_of_le_of_lt (Nat.zero_le _) shows_.inside
  refine ⟨Nat.mod_lt _ positive, fun count within => ?_⟩
  cases count with
  | zero => exact newest_put_zero size ring cell shows_.inside
  | succ count =>
      rw [newest_put_succ size ring cell count shows_.inside within, List.getD_cons_succ]
      exact shows_.shown count (Nat.lt_of_succ_lt within)

theorem Shows.around {ring : CellRing Cell} {contents : List Cell} {blank : Cell}
    (shows_ : Shows size ring contents blank) (count : Nat) :
    newest size ring count = contents.getD (count % size) blank := by
  have positive : 0 < size := Nat.lt_of_le_of_lt (Nat.zero_le _) shows_.inside
  rw [← shows_.shown (count % size) (Nat.mod_lt count positive), newest, newest, back, back,
    Nat.mod_mod]

theorem back_succ (tail count : Nat) (inside : tail < size) :
    back size tail (count + 1) = (back size tail count + size - 1) % size := by
  rw [back, back]
  rcases Nat.lt_or_ge (count % size + 1) size with before | last
  · have next : (count + 1) % size = count % size + 1 := by
      rw [Nat.add_mod, Nat.mod_eq_of_lt (Nat.lt_of_le_of_lt (Nat.le_add_left 1 _) before),
        Nat.mod_eq_of_lt before]
    rw [next]
    rcases Nat.lt_or_ge (count % size) tail with near | far
    · have here : tail + size - 1 - count % size = (tail - 1 - count % size) + size := by omega
      have there : tail + size - 1 - (count % size + 1) + size =
        (tail - 1 - count % size) + size - 1 + size := by omega
      rw [here, Nat.add_mod_right, Nat.mod_eq_of_lt (by omega : tail - 1 - count % size < size),
        ← Nat.add_mod_right (tail + size - 1 - (count % size + 1)), there, Nat.add_mod_right]
    · rw [Nat.mod_eq_of_lt (by omega : tail + size - 1 - count % size < size)]
      have there : tail + size - 1 - count % size + size - 1 =
        tail + size - 1 - (count % size + 1) + size := by omega
      rw [there, Nat.add_mod_right]
  · have positive : 0 < size := Nat.lt_of_le_of_lt (Nat.zero_le _) inside
    have same : count % size + 1 = size :=
      Nat.le_antisymm (Nat.mod_lt count positive) last
    have next : (count + 1) % size = 0 := by
      rw [Nat.add_mod]
      rcases Nat.lt_or_ge 1 size with more | one
      · rw [Nat.mod_eq_of_lt more, same, Nat.mod_self]
      · have only : size = 1 := Nat.le_antisymm one positive
        rw [only, Nat.mod_one]
    rw [next, Nat.sub_zero]
    have here : tail + size - 1 - count % size = tail := by omega
    rw [here, Nat.mod_eq_of_lt inside]

end CellRing

end RingBuffer
