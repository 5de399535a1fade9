/-
A priority queue by what it promises.

The entries are a bag, kept as a list in no particular order.  On top is an
entry that none is greater than; which one, where several are, is left open.
Where the entries are compared by a key, taking tops one after the other gives
the keys in ascending order, also when entries come in between that are not
below what has been taken.
-/

import Mathlib.Data.List.Perm.Basic
import Mathlib.Data.List.Pairwise

set_option autoImplicit false

namespace PriorityQueue

universe u

variable {Item : Type u} [DecidableEq Item]

/-- `less` is what the queue compares by; no entry is greater than the top. -/
def IsTop (less : Item → Item → Prop) (queue : List Item) (item : Item) : Prop :=
  item ∈ queue ∧ ∀ other ∈ queue, ¬ less item other

instance (less : Item → Item → Prop) [∀ left right, Decidable (less left right)]
    (queue : List Item) (item : Item) : Decidable (IsTop less queue item) :=
  inferInstanceAs (Decidable (_ ∧ _))

omit [DecidableEq Item] in
/-- The entry with the least key is on top of a queue that is compared by keys,
the lower key being the greater entry. -/
theorem least_of_isTop (less : Item → Item → Prop) (key : Item → Nat) (queue : List Item)
    (item : Item) (top : IsTop less queue item)
    (compares : ∀ left ∈ queue, ∀ right ∈ queue, less left right ↔ key right < key left) :
    ∀ other ∈ queue, key item ≤ key other := by
  intro other member
  apply Nat.le_of_not_lt
  intro below
  exact top.2 other member ((compares item top.1 other member).mpr below)

/-- What has been taken from a queue, in this order, of all that was offered. -/
structure Drain (key : Item → Nat) (offered taken queue : List Item) : Prop where
  kept : (taken ++ queue).Perm offered
  ascending : taken.Pairwise fun first second => key first ≤ key second
  below : ∀ first ∈ taken, ∀ second ∈ queue, key first ≤ key second

namespace Drain

variable {key : Item → Nat} {offered taken queue : List Item}

omit [DecidableEq Item] in
theorem start (queue : List Item) : Drain key queue [] queue :=
  ⟨List.Perm.refl _, List.Pairwise.nil, fun _ member => absurd member List.not_mem_nil⟩

theorem pop (drain : Drain key offered taken queue) (item : Item) (member : item ∈ queue)
    (least : ∀ other ∈ queue, key item ≤ key other) :
    Drain key offered (taken ++ [item]) (queue.erase item) := by
  constructor
  · rw [List.append_assoc]
    exact ((List.perm_cons_erase member).symm.append_left taken).trans drain.kept
  · refine List.pairwise_append.mpr ⟨drain.ascending, List.pairwise_singleton _ _, ?_⟩
    intro first before second isItem
    rw [List.mem_singleton.mp isItem]
    exact drain.below first before item member
  · intro first before second remains
    have inQueue := List.mem_of_mem_erase remains
    rcases List.mem_append.mp before with earlier | isItem
    · exact drain.below first earlier second inQueue
    · rw [List.mem_singleton.mp isItem]
      exact least second inQueue

omit [DecidableEq Item] in
theorem push (drain : Drain key offered taken queue) (item : Item)
    (above : ∀ first ∈ taken, key first ≤ key item) :
    Drain key (item :: offered) taken (item :: queue) := by
  constructor
  · exact List.perm_middle.trans (drain.kept.cons item)
  · exact drain.ascending
  · intro first before
    exact List.forall_mem_cons.mpr ⟨above first before, drain.below first before⟩

end Drain

end PriorityQueue
