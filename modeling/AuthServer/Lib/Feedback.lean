/-
A table that a cipher fills with its own output.

Each turn enciphers the last block under the table as it stands and puts the two halves
of the result in the place of the next two words.
-/

import Mathlib.Logic.Function.Basic

set_option autoImplicit false

namespace AuthServer

namespace Feedback

variable {Word : Type}

def half (block : Word × Word) (place : Nat) : Word :=
  if place % 2 = 0 then block.1 else block.2

def write (table : Nat → Word) (turn : Nat) (block : Word × Word) : Nat → Word :=
  Function.update (Function.update table (2 * turn) block.1) (2 * turn + 1) block.2

def overlay (table : Nat → Word) (blocks : Nat → Word × Word) (turns : Nat) : Nat → Word :=
  fun place => if place < 2 * turns then half (blocks (place / 2 + 1)) place else table place

def feed (cipher : (Nat → Word) → Word × Word → Word × Word) (table : Nat → Word)
    (start : Word × Word) : Nat → (Nat → Word) × (Word × Word)
  | 0 => (table, start)
  | turns + 1 =>
      let before := feed cipher table start turns
      let block := cipher before.1 before.2
      (write before.1 turns block, block)

theorem write_apply (table : Nat → Word) (turn : Nat) (block : Word × Word) (place : Nat) :
    write table turn block place =
      if place / 2 = turn then half block place else table place := by
  rw [write, half]
  by_cases odd : place = 2 * turn + 1
  · have there : place / 2 = turn := by omega
    have isOdd : ¬ place % 2 = 0 := by omega
    rw [odd, Function.update_self, ← odd, if_pos there, if_neg isOdd]
  · rw [Function.update_of_ne odd]
    by_cases even : place = 2 * turn
    · have there : place / 2 = turn := by omega
      have isEven : place % 2 = 0 := by omega
      rw [even, Function.update_self, ← even, if_pos there, if_pos isEven]
    · have elsewhere : ¬ place / 2 = turn := by omega
      rw [Function.update_of_ne even, if_neg elsewhere]

theorem write_overlay (table : Nat → Word) (blocks : Nat → Word × Word) (turns : Nat) :
    write (overlay table blocks turns) turns (blocks (turns + 1)) =
      overlay table blocks (turns + 1) := by
  funext place
  rw [write_apply, overlay, overlay]
  by_cases now : place / 2 = turns
  · have within : place < 2 * (turns + 1) := by omega
    rw [if_pos now, if_pos within, now]
  · rw [if_neg now]
    by_cases before : place < 2 * turns
    · have within : place < 2 * (turns + 1) := by omega
      rw [if_pos before, if_pos within]
    · have outside : ¬ place < 2 * (turns + 1) := by omega
      rw [if_neg before, if_neg outside]

/-- Every turn enciphers under the words of the turns before it and the rest of the table. -/
theorem feed_table (cipher : (Nat → Word) → Word × Word → Word × Word) (table : Nat → Word)
    (start : Word × Word) (turns : Nat) :
    (feed cipher table start turns).1 =
      overlay table (fun turn => (feed cipher table start turn).2) turns := by
  induction turns with
  | zero => rfl
  | succ turns ih =>
      rw [← write_overlay, ← ih]
      rfl

theorem feed_block (cipher : (Nat → Word) → Word × Word → Word × Word) (table : Nat → Word)
    (start : Word × Word) (turns : Nat) :
    (feed cipher table start (turns + 1)).2 =
      cipher (overlay table (fun turn => (feed cipher table start turn).2) turns)
        (feed cipher table start turns).2 := by
  rw [← feed_table]
  rfl

end Feedback

end AuthServer
