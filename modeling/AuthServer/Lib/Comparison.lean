/-
Three-way comparisons of values that are ordered field by field.

A comparison answers -1, 0 or 1.  Comparing a first field before the rest tells
how pairs stand in the lexicographic order.
-/

import Mathlib.Data.Prod.Lex

set_option autoImplicit false

namespace Comparison

universe u v

structure Tells {Value : Type u} [LT Value] (answer : Int) (first second : Value) : Prop where
  less : answer = -1 ↔ first < second
  same : answer = 0 ↔ first = second
  greater : answer = 1 ↔ second < first

variable {Field : Type u} {Rest : Type v} [LinearOrder Field] [LinearOrder Rest]

def orElse (first second : Field) (rest : Int) : Int :=
  if first ≠ second then if first < second then -1 else 1 else rest

theorem tells_field (first second : Field) : Tells (orElse first second 0) first second := by
  unfold orElse
  rcases lt_trichotomy first second with less | rfl | greater
  · rw [if_pos less.ne, if_pos less]
    exact ⟨iff_of_true rfl less, iff_of_false (by decide) less.ne,
      iff_of_false (by decide) less.asymm⟩
  · rw [if_neg (not_not.mpr rfl)]
    exact ⟨iff_of_false (by decide) (lt_irrefl _), iff_of_true rfl rfl,
      iff_of_false (by decide) (lt_irrefl _)⟩
  · rw [if_pos greater.ne', if_neg greater.asymm]
    exact ⟨iff_of_false (by decide) greater.asymm, iff_of_false (by decide) greater.ne',
      iff_of_true rfl greater⟩

namespace Tells

variable {answer : Int} {first second : Rest}

theorem before (tells : Tells answer first second) (field other : Field) :
    Tells (orElse field other answer) (toLex (field, first)) (toLex (other, second)) := by
  unfold orElse
  by_cases same : field = other
  · subst same
    rw [if_neg (not_not.mpr rfl)]
    refine ⟨?_, ?_, ?_⟩
    · rw [tells.less, Prod.Lex.toLex_lt_toLex]
      exact ⟨fun less => Or.inr ⟨rfl, less⟩, fun given =>
        given.elim (fun impossible => absurd impossible (lt_irrefl _)) And.right⟩
    · rw [tells.same, toLex_inj, Prod.mk.injEq]
      exact (and_iff_right rfl).symm
    · rw [tells.greater, Prod.Lex.toLex_lt_toLex]
      exact ⟨fun less => Or.inr ⟨rfl, less⟩, fun given =>
        given.elim (fun impossible => absurd impossible (lt_irrefl _)) And.right⟩
  · have alone := tells_field field other
    unfold orElse at alone
    rw [if_pos same] at alone ⊢
    refine ⟨?_, ?_, ?_⟩
    · rw [alone.less, Prod.Lex.toLex_lt_toLex]
      exact (or_iff_left fun given => same given.1).symm
    · rw [alone.same, toLex_inj, Prod.mk.injEq]
      exact iff_of_false same fun given => same given.1
    · rw [alone.greater, Prod.Lex.toLex_lt_toLex]
      exact (or_iff_left fun given => same given.1.symm).symm

theorem le_zero_iff (tells : Tells answer first second) : answer ≤ 0 ↔ first ≤ second := by
  rcases lt_trichotomy first second with less | same | greater
  · rw [tells.less.mpr less]
    exact iff_of_true (by decide) less.le
  · rw [tells.same.mpr same]
    exact iff_of_true (Int.le_refl 0) same.le
  · rw [tells.greater.mpr greater]
    exact iff_of_false (by decide) greater.not_ge

theorem ne_less_iff (tells : Tells answer first second) : answer ≠ -1 ↔ second ≤ first := by
  rw [Ne, tells.less, not_lt]

end Tells

end Comparison
