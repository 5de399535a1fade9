/-
Linear memory seen as a function from offsets to cells.

A block is read as a list and written from a list; copying reads the whole
source block before it writes, so overlapping moves are covered.  Bounds are
not part of the memory: whoever owns a region states its own.
-/

import Mathlib.Data.List.Basic

set_option autoImplicit false

namespace LinearMemory

universe u

variable {Cell : Type u}

def slice (cells : Nat → Cell) (start length : Nat) : List Cell :=
  (List.range length).map fun index => cells (start + index)

def store (cells : Nat → Cell) (start : Nat) (block : List Cell) : Nat → Cell :=
  fun position =>
    if position < start then cells position
    else (block[position - start]?).getD (cells position)

@[simp] theorem slice_length (cells : Nat → Cell) (start length : Nat) :
    (slice cells start length).length = length := by
  simp only [slice, List.length_map, List.length_range]

@[simp] theorem slice_zero (cells : Nat → Cell) (start : Nat) :
    slice cells start 0 = [] := rfl

theorem slice_getElem (cells : Nat → Cell) (start length index : Nat)
    (inside : index < (slice cells start length).length) :
    (slice cells start length)[index] = cells (start + index) := by
  simp only [slice, List.getElem_map, List.getElem_range]

theorem cell_of_slice (cells : Nat → Cell) (start : Nat) (block : List Cell)
    (there : slice cells start block.length = block) (index : Nat)
    (inside : index < block.length) : cells (start + index) = block[index] := by
  rw [← slice_getElem cells start block.length index (by rw [slice_length]; exact inside)]
  exact List.getElem_of_eq there _

theorem slice_congr (left right : Nat → Cell) (start length : Nat)
    (agree : ∀ position, start ≤ position → position < start + length →
      left position = right position) :
    slice left start length = slice right start length := by
  unfold slice
  apply List.map_congr_left
  intro index member
  have bound := List.mem_range.mp member
  exact agree (start + index) (Nat.le_add_right _ _) (by omega)

/-- Blocks of one length are the same when they agree cell by cell, wherever they lie. -/
theorem slice_eq_iff (left right : Nat → Cell) (leftStart rightStart length : Nat) :
    slice left leftStart length = slice right rightStart length ↔
      ∀ index, index < length → left (leftStart + index) = right (rightStart + index) := by
  unfold slice
  rw [List.map_inj_left]
  constructor
  · intro agree index inside
    exact agree index (List.mem_range.mpr inside)
  · intro agree index member
    exact agree index (List.mem_range.mp member)

theorem slice_append (cells : Nat → Cell) (start first second : Nat) :
    slice cells start (first + second) =
      slice cells start first ++ slice cells (start + first) second := by
  unfold slice
  rw [List.range_add, List.map_append, List.map_map]
  congr 1
  apply List.map_congr_left
  intro index _member
  exact congrArg cells (Nat.add_assoc start first index).symm

theorem slice_drop (cells : Nat → Cell) (start length count : Nat)
    (within : count ≤ length) :
    (slice cells start length).drop count =
      slice cells (start + count) (length - count) := by
  have split := slice_append cells start count (length - count)
  rw [Nat.add_sub_cancel' within] at split
  rw [split]
  exact List.drop_left' (slice_length cells start count)

theorem slice_take (cells : Nat → Cell) (start length count : Nat)
    (within : count ≤ length) :
    (slice cells start length).take count = slice cells start count := by
  have split := slice_append cells start count (length - count)
  rw [Nat.add_sub_cancel' within] at split
  rw [split]
  exact List.take_left' (slice_length cells start count)

theorem slice_head (cells : Nat → Cell) (start length : Nat) :
    slice cells start (length + 1) = cells start :: slice cells (start + 1) length := by
  rw [Nat.add_comm length 1, slice_append]
  rfl

theorem store_below (cells : Nat → Cell) (start position : Nat) (block : List Cell)
    (below : position < start) :
    store cells start block position = cells position := by
  unfold store
  rw [if_pos below]

theorem store_above (cells : Nat → Cell) (start position : Nat) (block : List Cell)
    (above : start + block.length ≤ position) :
    store cells start block position = cells position := by
  have notBelow : ¬ position < start := by omega
  have outside : block.length ≤ position - start := by omega
  simp only [store, if_neg notBelow, List.getElem?_eq_none outside, Option.getD_none]

theorem store_inside (cells : Nat → Cell) (start index : Nat) (block : List Cell)
    (inside : index < block.length) :
    store cells start block (start + index) = block[index] := by
  have notBelow : ¬ start + index < start := by omega
  simp only [store, if_neg notBelow, Nat.add_sub_cancel_left,
    List.getElem?_eq_getElem inside, Option.getD_some]

theorem store_head (cells : Nat → Cell) (start : Nat) (value : Cell) (rest : List Cell) :
    store cells start (value :: rest) start = value :=
  store_inside cells start 0 (value :: rest) (Nat.zero_lt_succ rest.length)

theorem store_nil (cells : Nat → Cell) (start : Nat) : store cells start [] = cells := by
  funext position
  by_cases below : position < start
  · exact store_below cells start position [] below
  · exact store_above cells start position [] (Nat.le_of_not_lt below)

theorem store_append (cells : Nat → Cell) (start : Nat) (first second : List Cell) :
    store (store cells start first) (start + first.length) second =
      store cells start (first ++ second) := by
  funext position
  by_cases below : position < start
  · rw [store_below _ _ _ _ (by omega), store_below _ _ _ _ below,
      store_below _ _ _ _ below]
  · by_cases inFirst : position < start + first.length
    · rw [store_below _ _ _ _ inFirst]
      simp only [store, if_neg below, List.getElem?_append_left
        (show position - start < first.length by omega)]
    · have offset : position - start - first.length = position - (start + first.length) := by
        omega
      have outside : first.length ≤ position - start := by omega
      simp only [store, if_neg below, if_neg inFirst, List.getElem?_append_right outside,
        List.getElem?_eq_none outside, Option.getD_none, offset]

theorem store_store (cells : Nat → Cell) (start : Nat) (first second : List Cell)
    (same : first.length = second.length) :
    store (store cells start first) start second = store cells start second := by
  funext position
  by_cases below : position < start
  · rw [store_below _ _ _ _ below, store_below _ _ _ _ below, store_below _ _ _ _ below]
  · by_cases inside : position < start + second.length
    · have offset : position - start < second.length := by omega
      simp only [store, if_neg below, List.getElem?_eq_getElem offset, Option.getD_some]
    · have above : start + second.length ≤ position := by omega
      rw [store_above _ _ _ _ above, store_above _ _ _ _ above,
        store_above _ _ _ _ (by omega)]

theorem slice_store_same (cells : Nat → Cell) (start : Nat) (block : List Cell) :
    slice (store cells start block) start block.length = block := by
  apply List.ext_getElem
  · exact slice_length _ _ _
  · intro index _inSlice inside
    rw [slice_getElem, store_inside cells start index block inside]

theorem slice_store_slice (cells source : Nat → Cell) (start origin length : Nat) :
    slice (store cells start (slice source origin length)) start length =
      slice source origin length := by
  have same := slice_store_same cells start (slice source origin length)
  rw [slice_length] at same
  exact same

theorem slice_store_before (cells : Nat → Cell) (start length target : Nat)
    (block : List Cell) (apart : start + length ≤ target) :
    slice (store cells target block) start length = slice cells start length := by
  apply slice_congr
  intro position _lower upper
  exact store_below cells target position block (by omega)

theorem slice_store_after (cells : Nat → Cell) (start length target : Nat)
    (block : List Cell) (apart : target + block.length ≤ start) :
    slice (store cells target block) start length = slice cells start length := by
  apply slice_congr
  intro position lower _upper
  exact store_above cells target position block (by omega)

theorem slice_store_extend (cells : Nat → Cell) (used : Nat) (block : List Cell) :
    slice (store cells used block) 0 (used + block.length) =
      slice cells 0 used ++ block := by
  rw [slice_append, slice_store_before cells 0 used used block (by omega),
    Nat.zero_add, slice_store_same]

end LinearMemory
