/-
A 32-bit tick counter and the time it shows.

Time is counted without a bound; a tick is its remainder.  Differences of ticks
are differences of times as long as the times lie close enough together: below
`2 ^ 32` for the unsigned difference, below `2 ^ 31` in either direction for
the signed one.
-/

import Mathlib.Data.List.Basic

set_option autoImplicit false

namespace TickClock

/-- What the counter shows at a time. -/
def tick (time : Nat) : UInt32 := UInt32.ofNat time

/-- The difference of two ticks as a signed number. -/
def distance (left right : UInt32) : Int := (left - right).toInt32.toInt

/-- Two times that a signed difference of ticks can tell apart. -/
def Near (left right : Nat) : Prop :=
  (left : Int) - right < 2147483648 ∧ (right : Int) - left < 2147483648

instance (left right : Nat) : Decidable (Near left right) := inferInstanceAs (Decidable (_ ∧ _))

theorem Near.symm {left right : Nat} (near : Near left right) : Near right left :=
  ⟨near.2, near.1⟩

@[simp] theorem tick_toNat (time : Nat) : (tick time).toNat = time % 4294967296 :=
  UInt32.toNat_ofNat'

theorem tick_sub_toNat (time elapsed : Nat) (bound : elapsed < 4294967296) :
    (tick (time + elapsed) - tick time).toNat = elapsed := by
  rw [UInt32.toNat_sub, tick_toNat, tick_toNat]
  omega

theorem toInt_toInt32 (value : UInt32) :
    value.toInt32.toInt =
      if 2 * value.toNat < 4294967296 then (value.toNat : Int)
      else (value.toNat : Int) - 4294967296 := by
  change value.toBitVec.toInt = _
  rw [BitVec.toInt_eq_toNat_cond]
  rfl

theorem distance_tick (left right : Nat) (near : Near left right) :
    distance (tick left) (tick right) = (left : Int) - right := by
  unfold Near at near
  unfold distance
  rw [toInt_toInt32, UInt32.toNat_sub, tick_toNat, tick_toNat]
  split
  · omega
  · omega

end TickClock
