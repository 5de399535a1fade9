/-
Hash functions that compress a text block by block, and their input in pieces.

A context that is fed piece by piece has compressed the whole blocks in front and holds the
symbols behind them.  `Holds` says so of any text, and the rules below are the ways in which
a further piece changes it.
-/

import Mathlib.Data.List.Basic
import Mathlib.Algebra.Order.Ring.Nat

set_option autoImplicit false

namespace BlockHash

structure Scheme (State Symbol : Type) where
  size : Nat
  positive : 0 < size
  compress : State → List Symbol → State

namespace Scheme

variable {State Symbol : Type} (scheme : Scheme State Symbol)

def block (text : List Symbol) (index : Nat) : List Symbol :=
  (text.drop (scheme.size * index)).take scheme.size

def absorb (start : State) (text : List Symbol) : State :=
  (List.range (text.length / scheme.size)).foldl
    (fun state index => scheme.compress state (scheme.block text index)) start

/-- A state that has taken in all whole blocks of a text, and what lies behind them. -/
structure Holds (start : State) (text : List Symbol) (state : State) (held : List Symbol) :
    Prop where
  short : held.length < scheme.size
  split : ∃ front, text = front ++ held ∧ scheme.size ∣ front.length ∧
    state = scheme.absorb start front

theorem block_front (front more : List Symbol) (index : Nat)
    (within : scheme.size * (index + 1) ≤ front.length) :
    scheme.block (front ++ more) index = scheme.block front index := by
  rw [Nat.mul_succ] at within
  unfold block
  rw [List.drop_append_of_le_length (by omega), List.take_append_of_le_length]
  rw [List.length_drop]
  omega

theorem block_behind (front more : List Symbol) (whole index : Nat)
    (length : front.length = scheme.size * whole) :
    scheme.block (front ++ more) (whole + index) = scheme.block more index := by
  unfold block
  rw [Nat.mul_add, ← length, List.drop_append, List.drop_eq_nil_of_le (Nat.le_add_right _ _),
    List.nil_append, Nat.add_sub_cancel_left]

theorem absorb_append (start : State) (front more : List Symbol)
    (divides : scheme.size ∣ front.length) :
    scheme.absorb start (front ++ more) = scheme.absorb (scheme.absorb start front) more := by
  obtain ⟨whole, length⟩ := divides
  have count : (front ++ more).length / scheme.size = whole + more.length / scheme.size := by
    rw [List.length_append, length, Nat.mul_add_div scheme.positive]
  have own : front.length / scheme.size = whole := by
    rw [length, Nat.mul_div_cancel_left whole scheme.positive]
  unfold absorb
  rw [count, own, List.range_add, List.foldl_append, List.foldl_map]
  have first : (List.range whole).foldl
      (fun state index => scheme.compress state (scheme.block (front ++ more) index)) start =
      (List.range whole).foldl
        (fun state index => scheme.compress state (scheme.block front index)) start := by
    apply List.foldl_ext
    intro state index member
    have below : index + 1 ≤ whole := List.mem_range.mp member
    rw [scheme.block_front front more index (by rw [length]; exact Nat.mul_le_mul_left _ below)]
  rw [first]
  apply List.foldl_ext
  intro state index _member
  rw [scheme.block_behind front more whole index length]

theorem absorb_block (start : State) (text : List Symbol) (length : text.length = scheme.size) :
    scheme.absorb start text = scheme.compress start text := by
  have once : text.length / scheme.size = 1 := by
    rw [length, Nat.div_self scheme.positive]
  have whole : scheme.block text 0 = text := by
    rw [block, Nat.mul_zero, List.drop_zero, ← length, List.take_length]
  rw [absorb, once]
  exact congrArg (scheme.compress start) whole

theorem absorb_cons (start : State) (first more : List Symbol)
    (length : first.length = scheme.size) :
    scheme.absorb start (first ++ more) = scheme.absorb (scheme.compress start first) more := by
  rw [scheme.absorb_append start first more (length ▸ Nat.dvd_refl _),
    scheme.absorb_block start first length]

theorem absorb_short (start : State) (text : List Symbol) (short : text.length < scheme.size) :
    scheme.absorb start text = start := by
  rw [absorb, Nat.div_eq_of_lt short]
  rfl

theorem holds_nil (start : State) : scheme.Holds start [] start [] :=
  ⟨scheme.positive, [], rfl, Nat.dvd_zero _, (scheme.absorb_short start [] scheme.positive).symm⟩

namespace Holds

variable {scheme} {start state : State} {text held : List Symbol}
  (holds : scheme.Holds start text state held)

include holds

theorem length : held.length = text.length % scheme.size := by
  obtain ⟨front, whole, ⟨count, divides⟩, _⟩ := holds.split
  rw [whole, List.length_append, divides, Nat.mul_add_mod, Nat.mod_eq_of_lt holds.short]

theorem keep (piece : List Symbol) (short : held.length + piece.length < scheme.size) :
    scheme.Holds start (text ++ piece) state (held ++ piece) := by
  obtain ⟨front, whole, divides, reached⟩ := holds.split
  refine ⟨?_, front, ?_, divides, reached⟩
  · rw [List.length_append]
    exact short
  · rw [whole, List.append_assoc]

theorem complete (piece : List Symbol) (filled : held.length + piece.length = scheme.size) :
    scheme.Holds start (text ++ piece) (scheme.compress state (held ++ piece)) [] := by
  obtain ⟨front, whole, divides, reached⟩ := holds.split
  have length : (held ++ piece).length = scheme.size := by
    rw [List.length_append]
    exact filled
  refine ⟨scheme.positive, front ++ (held ++ piece), ?_, ?_, ?_⟩
  · rw [whole, List.append_assoc, List.append_nil]
  · rw [List.length_append, length]
    exact Nat.dvd_add divides (Nat.dvd_refl _)
  · rw [scheme.absorb_append start front _ divides, ← reached,
      scheme.absorb_block state _ length]

theorem blocks (nothing : held = []) (more rest : List Symbol)
    (divides : scheme.size ∣ more.length) (short : rest.length < scheme.size) :
    scheme.Holds start (text ++ (more ++ rest)) (scheme.absorb state more) rest := by
  obtain ⟨front, whole, before, reached⟩ := holds.split
  rw [nothing, List.append_nil] at whole
  refine ⟨short, front ++ more, ?_, ?_, ?_⟩
  · rw [whole, List.append_assoc]
  · rw [List.length_append]
    exact Nat.dvd_add before divides
  · rw [scheme.absorb_append start front more before, ← reached]

theorem done (divides : scheme.size ∣ text.length) : state = scheme.absorb start text := by
  have nothing : held = [] := by
    apply List.eq_nil_of_length_eq_zero
    rw [holds.length]
    exact Nat.mod_eq_zero_of_dvd divides
  obtain ⟨front, whole, _, reached⟩ := holds.split
  rw [nothing, List.append_nil] at whole
  rw [whole]
  exact reached

end Holds

end Scheme

end BlockHash
