/-
Tables of half-open ranges that are searched by their upper ends.

A table is layered when each range ends strictly below the next one begins,
except that ranges with one common beginning may follow each other by growing
end.  On a layered table a search by upper ends answers membership exactly, and
a new range is put in by swallowing the ranges it touches.

Nothing here fixes the ordered type or what the ranges are for.
-/

import Mathlib.Data.List.Basic
import Mathlib.Order.Lattice

set_option autoImplicit false

namespace RangeTable

universe u

/-! ### Partition points -/

section PartitionPoint

variable {Item : Type u}

/-- Where the items that meet the condition start.  A binary search is
specified only for lists in which no item that misses it comes later. -/
def partitionPoint (condition : Item → Bool) : List Item → Option Nat
  | [] => some 0
  | item :: rest =>
      if condition item then
        if rest.all condition then some 0 else none
      else (partitionPoint condition rest).map (· + 1)

theorem partitionPoint_append (condition : Item → Bool) (before after : List Item)
    (misses : ∀ item ∈ before, condition item = false)
    (meets : ∀ item ∈ after, condition item = true) :
    partitionPoint condition (before ++ after) = some before.length := by
  induction before with
  | nil =>
      cases after with
      | nil => rfl
      | cons head tail =>
          have first := meets head List.mem_cons_self
          have others : tail.all condition = true :=
            List.all_eq_true.mpr fun item member =>
              meets item (List.mem_cons_of_mem head member)
          simp only [List.nil_append, partitionPoint, first, others, if_true,
            List.length_nil]
  | cons head tail ih =>
      have first := misses head List.mem_cons_self
      have others := ih fun item member => misses item (List.mem_cons_of_mem head member)
      simp only [List.cons_append, partitionPoint, first, others, Bool.false_eq_true,
        if_false, Option.map_some, List.length_cons]

theorem partitionPoint_last_misses (condition : Item → Bool) (items : List Item)
    (last : Item) (point : Nat)
    (found : partitionPoint condition (items ++ [last]) = some point)
    (lastMisses : condition last = false) :
    ∀ item ∈ items, condition item = false := by
  induction items generalizing point with
  | nil =>
      intro item member
      contradiction
  | cons head tail ih =>
      rw [List.cons_append, partitionPoint] at found
      split at found
      · split at found
        · rename_i others
          have lastMeets := List.all_eq_true.mp others last (List.mem_append_right _
            List.mem_cons_self)
          rw [lastMisses] at lastMeets
          contradiction
        · contradiction
      · rename_i headMisses
        obtain ⟨inner, innerFound, _⟩ := Option.map_eq_some_iff.mp found
        intro item member
        rcases List.mem_cons.mp member with rfl | later
        · exact Bool.eq_false_iff.mpr headMisses
        · exact ih inner innerFound item later

end PartitionPoint

/-! ### Ranges and layered tables -/

structure Range (α : Type u) where
  begin : α
  stop : α
  deriving DecidableEq, Repr

variable {α : Type u} [LinearOrder α]

def Range.Contains (range : Range α) (value : α) : Prop :=
  range.begin ≤ value ∧ value < range.stop

instance (range : Range α) (value : α) : Decidable (range.Contains value) :=
  inferInstanceAs (Decidable (_ ∧ _))

def Covered (table : List (Range α)) (value : α) : Prop :=
  ∃ range ∈ table, range.Contains value

instance (table : List (Range α)) (value : α) : Decidable (Covered table value) :=
  inferInstanceAs (Decidable (∃ range ∈ table, _))

def Precedes (first second : Range α) : Prop :=
  first.stop < second.begin ∨ (first.begin = second.begin ∧ first.stop ≤ second.stop)

structure Layered (table : List (Range α)) : Prop where
  proper : ∀ range ∈ table, range.begin < range.stop
  ordered : table.Pairwise Precedes

def upperBound (table : List (Range α)) (value : α) : Option Nat :=
  partitionPoint (fun range => decide (value < range.stop)) table

/-- Membership by one search: the first range that ends above the value. -/
def lookup (table : List (Range α)) (value : α) : Option Bool :=
  (upperBound table value).map fun it =>
    match table[it]? with
    | none => false
    | some range => decide (range.begin ≤ value)

def coalesce (range : Range α) : List (Range α) → List (Range α)
  | [] => [range]
  | it :: rest =>
      if it.begin ≤ range.stop then
        coalesce (if range.stop < it.stop then { range with stop := it.stop } else range) rest
      else range :: it :: rest

theorem covered_append (first second : List (Range α)) (value : α) :
    Covered (first ++ second) value ↔ Covered first value ∨ Covered second value := by
  simp only [Covered, List.mem_append, or_and_right, exists_or]

theorem covered_cons (range : Range α) (rest : List (Range α)) (value : α) :
    Covered (range :: rest) value ↔ range.Contains value ∨ Covered rest value := by
  simp only [Covered, List.mem_cons, exists_eq_or_imp]

theorem covered_nil (value : α) : ¬ Covered ([] : List (Range α)) value := by
  intro given
  obtain ⟨range, member, _⟩ := given
  contradiction

theorem layered_nil : Layered ([] : List (Range α)) :=
  ⟨List.forall_mem_nil _, List.Pairwise.nil⟩

theorem Precedes.bounds {first second : Range α} (precedes : Precedes first second)
    (firstProper : first.begin < first.stop) (secondProper : second.begin < second.stop) :
    first.begin ≤ second.begin ∧ first.stop ≤ second.stop := by
  rcases precedes with apart | ⟨same, grows⟩
  · exact ⟨le_of_lt (lt_trans firstProper apart), le_of_lt (lt_trans apart secondProper)⟩
  · exact ⟨le_of_eq same, grows⟩

/-- Every value cuts a layered table into what ends at or below it and what
ends above it. -/
theorem Layered.cut {table : List (Range α)} (layered : Layered table) (value : α) :
    ∃ before after, table = before ++ after ∧
      upperBound table value = some before.length ∧
      (∀ range ∈ before, range.stop ≤ value) ∧
      (∀ range ∈ after, value < range.stop) := by
  suffices split : ∃ before after, table = before ++ after ∧
      (∀ range ∈ before, range.stop ≤ value) ∧ (∀ range ∈ after, value < range.stop) by
    obtain ⟨before, after, rfl, ends, reaches⟩ := split
    refine ⟨before, after, rfl, ?_, ends, reaches⟩
    exact partitionPoint_append _ before after
      (fun range member => decide_eq_false (not_lt_of_ge (ends range member)))
      (fun range member => decide_eq_true (reaches range member))
  induction table with
  | nil => exact ⟨[], [], rfl, List.forall_mem_nil _, List.forall_mem_nil _⟩
  | cons head rest ih =>
      rcases layered with ⟨proper, ordered⟩
      rw [List.pairwise_cons] at ordered
      by_cases reaches : value < head.stop
      · refine ⟨[], head :: rest, rfl, List.forall_mem_nil _, ?_⟩
        intro range member
        rcases List.mem_cons.mp member with rfl | later
        · exact reaches
        · have grows := (ordered.1 range later).bounds
            (proper head List.mem_cons_self) (proper range member)
          exact lt_of_lt_of_le reaches grows.2
      · obtain ⟨before, after, rfl, ends, above⟩ :=
          ih ⟨fun range member => proper range (List.mem_cons_of_mem head member), ordered.2⟩
        refine ⟨head :: before, after, rfl, ?_, above⟩
        intro range member
        rcases List.mem_cons.mp member with rfl | later
        · exact le_of_not_gt reaches
        · exact ends range later

theorem lookup_append_cons (before : List (Range α)) (range : Range α)
    (after : List (Range α)) (value : α)
    (ends : ∀ other ∈ before, other.stop ≤ value)
    (reaches : ∀ other ∈ range :: after, value < other.stop) :
    lookup (before ++ range :: after) value = some (decide (range.begin ≤ value)) := by
  have point : upperBound (before ++ range :: after) value = some before.length :=
    partitionPoint_append _ before (range :: after)
      (fun other member => decide_eq_false (not_lt_of_ge (ends other member)))
      (fun other member => decide_eq_true (reaches other member))
  have found : (before ++ range :: after)[before.length]? = some range := by
    rw [List.getElem?_append_right (Nat.le_refl _), Nat.sub_self]
    rfl
  simp only [lookup, point, found, Option.map_some]

/-- On a layered table the search answers membership. -/
theorem Layered.lookup_eq {table : List (Range α)} (layered : Layered table) (value : α) :
    lookup table value = some (decide (Covered table value)) := by
  obtain ⟨before, after, rfl, point, ends, reaches⟩ := layered.cut value
  have below : ¬ Covered before value := by
    intro given
    obtain ⟨range, member, _, inside⟩ := given
    exact absurd inside (not_lt_of_ge (ends range member))
  cases after with
  | nil =>
      rw [List.append_nil] at point ⊢
      have outside : before[before.length]? = none :=
        List.getElem?_eq_none (Nat.le_refl _)
      simp only [lookup, point, outside, Option.map_some, decide_eq_false below]
  | cons range rest =>
      rw [lookup_append_cons before range rest value ends reaches]
      congr 1
      rw [decide_eq_decide, covered_append]
      constructor
      · intro begins
        exact Or.inr ⟨range, List.mem_cons_self, begins, reaches range List.mem_cons_self⟩
      · intro given
        rcases given with inBefore | ⟨other, member, begins, _⟩
        · exact absurd inBefore below
        · rcases List.mem_cons.mp member with rfl | later
          · exact begins
          · have ordered := (List.pairwise_append.mp layered.ordered).2.1
            have grows := (List.rel_of_pairwise_cons ordered later).bounds
              (layered.proper range (List.mem_append_right _ List.mem_cons_self))
              (layered.proper other (List.mem_append_right _ member))
            exact le_trans grows.1 begins

/-! ### Putting a range in -/

theorem Precedes.grow {first range : Range α} (precedes : Precedes first range) (stop : α)
    (grows : range.stop ≤ stop) : Precedes first { range with stop := stop } := by
  rcases precedes with apart | ⟨same, under⟩
  · exact Or.inl apart
  · exact Or.inr ⟨same, le_trans under grows⟩

theorem Layered.erase {before rest : List (Range α)} {it : Range α}
    (layered : Layered (before ++ it :: rest)) : Layered (before ++ rest) := by
  have sub : (before ++ rest).Sublist (before ++ it :: rest) :=
    List.Sublist.append_left (List.sublist_cons_self it rest) before
  exact ⟨fun other member => layered.proper other (sub.subset member),
    layered.ordered.sublist sub⟩

/-- Two ranges that touch in order hold together what their hull holds. -/
theorem Range.contains_hull (left right : Range α) (value : α)
    (begins : left.begin ≤ right.begin) (touches : right.begin ≤ left.stop)
    (ends : left.stop ≤ right.stop) :
    Range.Contains ⟨left.begin, right.stop⟩ value ↔
      left.Contains value ∨ right.Contains value := by
  constructor
  · intro given
    obtain ⟨above, below⟩ := given
    by_cases low : value < left.stop
    · exact Or.inl ⟨above, low⟩
    · exact Or.inr ⟨le_trans touches (le_of_not_gt low), below⟩
  · intro given
    rcases given with ⟨above, below⟩ | ⟨above, below⟩
    · exact ⟨above, lt_of_lt_of_le below ends⟩
    · exact ⟨le_trans begins above, below⟩

/-- Swallowing followers keeps a layered table layered. -/
theorem coalesce_layered (before : List (Range α)) (range : Range α)
    (after : List (Range α)) (layered : Layered (before ++ after))
    (proper : range.begin < range.stop)
    (follows : ∀ other ∈ before, Precedes other range) :
    Layered (before ++ coalesce range after) := by
  induction after generalizing range with
  | nil =>
      rw [List.append_nil] at layered
      refine ⟨?_, List.pairwise_append.mpr ⟨layered.ordered, List.pairwise_singleton _ _, ?_⟩⟩
      · intro other member
        rcases List.mem_append.mp member with old | new
        · exact layered.proper other old
        · rw [List.mem_singleton.mp new]
          exact proper
      · intro other member last isLast
        rw [List.mem_singleton.mp isLast]
        exact follows other member
  | cons it rest ih =>
      have parts := List.pairwise_append.mp layered.ordered
      rw [coalesce]
      split
      · split
        · rename_i longer
          apply ih { range with stop := it.stop } layered.erase (lt_trans proper longer)
          intro other member
          exact (follows other member).grow it.stop (le_of_lt longer)
        · exact ih range layered.erase proper follows
      · rename_i beyond
        have apart : range.stop < it.begin := lt_of_not_ge beyond
        refine ⟨?_, List.pairwise_append.mpr ⟨parts.1, List.pairwise_cons.mpr ⟨?_, parts.2.1⟩, ?_⟩⟩
        · intro other member
          rcases List.mem_append.mp member with old | new
          · exact layered.proper other (List.mem_append_left _ old)
          · rcases List.mem_cons.mp new with rfl | later
            · exact proper
            · exact layered.proper other (List.mem_append_right _ later)
        · intro other member
          rcases List.mem_cons.mp member with rfl | later
          · exact Or.inl apart
          · have grows := (List.rel_of_pairwise_cons parts.2.1 later).bounds
              (layered.proper it (List.mem_append_right _ List.mem_cons_self))
              (layered.proper other (List.mem_append_right _ member))
            exact Or.inl (lt_of_lt_of_le apart grows.1)
        · intro other member next isNext
          rcases List.mem_cons.mp isNext with rfl | later
          · exact follows other member
          · exact parts.2.2 other member next later

/-- Swallowing followers that begin inside or above the range loses nothing
and adds nothing. -/
theorem coalesce_covered (range : Range α) (rest : List (Range α))
    (proper : range.begin < range.stop)
    (above : ∀ other ∈ rest, range.begin ≤ other.begin) (value : α) :
    Covered (coalesce range rest) value ↔ range.Contains value ∨ Covered rest value := by
  induction rest generalizing range with
  | nil => exact covered_cons range [] value
  | cons it rest ih =>
      have itAbove := above it List.mem_cons_self
      have restAbove : ∀ other ∈ rest, range.begin ≤ other.begin :=
        fun other member => above other (List.mem_cons_of_mem it member)
      rw [coalesce]
      split
      · rename_i touches
        split
        · rename_i longer
          rw [ih { range with stop := it.stop } (lt_trans proper longer) restAbove, covered_cons,
            ← or_assoc]
          exact or_congr_left
            (Range.contains_hull range it value itAbove touches (le_of_lt longer))
        · rename_i shorter
          rw [ih range proper restAbove, covered_cons, ← or_assoc]
          apply or_congr_left (iff_of_eq ?_)
          rw [eq_iff_iff]
          constructor
          · exact Or.inl
          · intro given
            rcases given with inside | ⟨begins, inside⟩
            · exact inside
            · exact ⟨le_trans itAbove begins, lt_of_lt_of_le inside (le_of_not_gt shorter)⟩
      · rw [covered_cons, covered_cons]

/-- A range put in between adds exactly what it contains. -/
theorem covered_inserted (before : List (Range α)) (range : Range α) (after : List (Range α))
    (proper : range.begin < range.stop)
    (above : ∀ other ∈ after, range.begin ≤ other.begin) (value : α) :
    Covered (before ++ coalesce range after) value ↔
      Covered (before ++ after) value ∨ range.Contains value := by
  rw [covered_append, coalesce_covered range after proper above, covered_append]
  constructor
  · intro given
    rcases given with old | new | old
    · exact Or.inl (Or.inl old)
    · exact Or.inr new
    · exact Or.inl (Or.inr old)
  · intro given
    rcases given with (old | old) | new
    · exact Or.inl old
    · exact Or.inr (Or.inr old)
    · exact Or.inr (Or.inl new)

private theorem room_below (before : List (Range α)) (least limit : α) (room : least < limit)
    (ends : ∀ other ∈ before, other.stop < limit) :
    ∃ value, least ≤ value ∧ (∀ other ∈ before, other.stop ≤ value) ∧ value < limit := by
  induction before with
  | nil => exact ⟨least, le_refl least, List.forall_mem_nil _, room⟩
  | cons head tail ih =>
      obtain ⟨value, atLeast, above, below⟩ :=
        ih fun other member => ends other (List.mem_cons_of_mem head member)
      refine ⟨max value head.stop, le_trans atLeast (le_max_left _ _), ?_,
        max_lt below (ends head List.mem_cons_self)⟩
      intro other member
      rcases List.mem_cons.mp member with rfl | later
      · exact le_max_right _ _
      · exact le_trans (above other later) (le_max_left _ _)

/-- A range put behind a layered table, beginning at the least value, is found
only if everything before it begins there too and ends no higher. -/
theorem Layered.append_of_lookup {table : List (Range α)} (layered : Layered table)
    (range : Range α) (least : ∀ value : α, range.begin ≤ value)
    (right : ∀ value, lookup (table ++ [range]) value =
      some (decide (Covered (table ++ [range]) value))) :
    ∀ other ∈ table, other.begin = range.begin ∧ other.stop ≤ range.stop := by
  have shorter : ∀ other ∈ table, other.stop ≤ range.stop := by
    obtain ⟨point, found, _⟩ := Option.map_eq_some_iff.mp (right range.stop)
    intro other member
    have misses := partitionPoint_last_misses _ table range point found
      (decide_eq_false (lt_irrefl range.stop)) other member
    exact le_of_not_gt (of_decide_eq_false misses)
  suffices begins : ∀ after before, table = before ++ after →
      (∀ other ∈ before, other.begin = range.begin) →
      ∀ other ∈ after, other.begin = range.begin by
    intro other member
    exact ⟨begins table [] rfl (List.forall_mem_nil _) other member, shorter other member⟩
  intro after
  induction after with
  | nil =>
      intro before _ _ other member
      contradiction
  | cons it rest ih =>
      intro before split same
      subst split
      have itBegins : it.begin = range.begin := by
        by_contra differs
        have higher : range.begin < it.begin := lt_of_le_of_ne (least it.begin) (Ne.symm differs)
        have ends : ∀ other ∈ before, other.stop < it.begin := by
          intro other member
          rcases (List.pairwise_append.mp layered.ordered).2.2 other member it
            List.mem_cons_self with apart | ⟨sameBegin, _⟩
          · exact apart
          · exact absurd ((same other member).symm.trans sameBegin).symm differs
        obtain ⟨value, atLeast, above, below⟩ :=
          room_below before range.begin it.begin higher ends
        have itProper := layered.proper it (List.mem_append_right _ List.mem_cons_self)
        have covered : Covered (before ++ it :: rest ++ [range]) value :=
          ⟨range, List.mem_append_right _ List.mem_cons_self, atLeast,
            lt_of_lt_of_le (lt_trans below itProper)
              (shorter it (List.mem_append_right _ List.mem_cons_self))⟩
        have reaches : ∀ other ∈ it :: (rest ++ [range]), value < other.stop := by
          intro other member
          rw [← List.cons_append] at member
          rcases List.mem_append.mp member with old | new
          · have grows : it.stop ≤ other.stop := by
              rcases List.mem_cons.mp old with rfl | later
              · exact le_refl _
              · exact ((List.rel_of_pairwise_cons
                  (List.pairwise_append.mp layered.ordered).2.1 later).bounds itProper
                  (layered.proper other (List.mem_append_right _ old))).2
            exact lt_of_lt_of_le (lt_trans below itProper) grows
          · rw [List.mem_singleton.mp new]
            exact lt_of_lt_of_le (lt_trans below itProper)
              (shorter it (List.mem_append_right _ List.mem_cons_self))
        have answered := right value
        rw [decide_eq_true covered, List.append_assoc, List.cons_append,
          lookup_append_cons before it (rest ++ [range]) value above reaches,
          decide_eq_false (not_le_of_gt below)] at answered
        contradiction
      intro other member
      rcases List.mem_cons.mp member with rfl | later
      · exact itBegins
      · apply ih (before ++ [it]) (by rw [List.append_assoc]; rfl) ?_ other later
        intro earlier isEarlier
        rcases List.mem_append.mp isEarlier with old | new
        · exact same earlier old
        · rw [List.mem_singleton.mp new]
          exact itBegins

theorem Layered.comparable {table : List (Range α)} (layered : Layered table)
    (first second : Range α) (isFirst : first ∈ table) (isSecond : second ∈ table) :
    first = second ∨ Precedes first second ∨ Precedes second first := by
  have ordered := layered.ordered
  clear layered
  induction ordered with
  | nil => contradiction
  | cons later _ ih =>
      rcases List.mem_cons.mp isFirst with rfl | firstLater
      · rcases List.mem_cons.mp isSecond with rfl | secondLater
        · exact Or.inl rfl
        · exact Or.inr (Or.inl (later second secondLater))
      · rcases List.mem_cons.mp isSecond with rfl | secondLater
        · exact Or.inr (Or.inr (later first firstLater))
        · exact ih firstLater secondLater

/-- The ranges of a layered table all begin at the least value and stay below
`stop` exactly when what they cover is an initial segment below `stop`. -/
theorem Layered.initial_segment {table : List (Range α)} (layered : Layered table)
    (least stop : α) (isLeast : ∀ value : α, least ≤ value) :
    (∀ range ∈ table, range.begin = least ∧ range.stop ≤ stop) ↔
      ∀ value, Covered table value → value < stop ∧ ∀ lower ≤ value, Covered table lower := by
  constructor
  · intro under value given
    obtain ⟨range, member, _, inside⟩ := given
    obtain ⟨begins, within⟩ := under range member
    refine ⟨lt_of_lt_of_le inside within, fun lower below => ?_⟩
    exact ⟨range, member, begins ▸ isLeast lower, lt_of_le_of_lt below inside⟩
  · intro segment range member
    have begins : range.begin = least := by
      by_contra differs
      have higher : least < range.begin := lt_of_le_of_ne (isLeast _) (Ne.symm differs)
      have ends : ∀ other ∈ table.filter (fun other => decide (other.begin < range.begin)),
          other.stop < range.begin := by
        intro other isOther
        obtain ⟨inTable, lower⟩ := List.mem_filter.mp isOther
        have below := of_decide_eq_true lower
        rcases layered.comparable other range inTable member with same | precedes | precedes
        · exact absurd (same ▸ below) (lt_irrefl _)
        · rcases precedes with apart | ⟨same, _⟩
          · exact apart
          · exact absurd same (ne_of_lt below)
        · have grows := precedes.bounds (layered.proper range member)
            (layered.proper other inTable)
          exact absurd below (not_lt_of_ge grows.1)
      obtain ⟨value, _, above, below⟩ := room_below _ least range.begin higher ends
      have start : Covered table range.begin :=
        ⟨range, member, le_refl _, layered.proper range member⟩
      obtain ⟨other, isOther, begins, inside⟩ :=
        (segment range.begin start).2 value (le_of_lt below)
      have selected : other ∈ table.filter (fun other => decide (other.begin < range.begin)) :=
        List.mem_filter.mpr ⟨isOther, decide_eq_true (lt_of_le_of_lt begins below)⟩
      exact absurd inside (not_lt_of_ge (above other selected))
    refine ⟨begins, le_of_not_gt fun beyond => ?_⟩
    have inside : Covered table stop :=
      ⟨range, member, begins ▸ isLeast stop, beyond⟩
    exact absurd (segment stop inside).1 (lt_irrefl stop)

end RangeTable
