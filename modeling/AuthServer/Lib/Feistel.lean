/-
Feistel networks over any type of halves.

A round mixes one half into the other and exchanges the two.  All that is asked
of the operation that joins the halves is that joining the same value twice
undoes it; the mixing functions are arbitrary.  Running the rounds backwards on
the exchanged block undoes the network.
-/

import Mathlib.Data.Prod.Basic

set_option autoImplicit false

namespace Feistel

universe u

variable {Half : Type u}

def Cancels (join : Half → Half → Half) : Prop :=
  ∀ left right, join (join left right) right = left

def round (join : Half → Half → Half) (block : Half × Half) (mix : Half → Half) :
    Half × Half :=
  (join block.2 (mix block.1), block.1)

def network (join : Half → Half → Half) (mixes : List (Half → Half))
    (block : Half × Half) : Half × Half :=
  mixes.foldl (round join) block

variable {join : Half → Half → Half}

theorem round_swap_round (cancels : Cancels join) (block : Half × Half)
    (mix : Half → Half) : round join (round join block mix).swap mix = block.swap := by
  rcases block with ⟨left, right⟩
  simp only [round, Prod.swap_prod_mk, cancels right (mix left)]

theorem network_append (first second : List (Half → Half)) (block : Half × Half) :
    network join (first ++ second) block =
      network join second (network join first block) :=
  List.foldl_append

theorem network_reverse (cancels : Cancels join) (mixes : List (Half → Half))
    (block : Half × Half) :
    network join mixes.reverse (network join mixes block).swap = block.swap := by
  induction mixes generalizing block with
  | nil => rfl
  | cons mix rest ih =>
      have inner := ih (round join block mix)
      calc network join (mix :: rest).reverse (network join (mix :: rest) block).swap
          = network join (rest.reverse ++ [mix])
              (network join rest (round join block mix)).swap := by
            rw [List.reverse_cons]
            rfl
        _ = round join (round join block mix).swap mix := by
            rw [network_append, inner]
            rfl
        _ = block.swap := round_swap_round cancels block mix

end Feistel
