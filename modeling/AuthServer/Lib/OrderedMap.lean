/-
Maps kept as lists of entries in ascending order of their keys.

Iteration visits the entries in that order.  Inserting under a key that is
there already changes nothing, as with the standard ordered map of C++.
-/

import Mathlib.Algebra.BigOperators.Group.Finset.Piecewise
import Mathlib.Algebra.Ring.Nat
import Mathlib.Data.Fintype.Basic
import Mathlib.Data.List.Basic
import Mathlib.Order.Lattice

set_option autoImplicit false

universe u v

structure OrderedMap (κ : Type u) (ν : Type v) [LinearOrder κ] where
  entries : List (κ × ν)
  ascending : entries.Pairwise (fun first second => first.1 < second.1)

namespace OrderedMap

variable {κ : Type u} {ν : Type v} [LinearOrder κ]

def insertEntry (key : κ) (value : ν) : List (κ × ν) → List (κ × ν)
  | [] => [(key, value)]
  | head :: rest =>
      if key < head.1 then (key, value) :: head :: rest
      else if key = head.1 then head :: rest
      else head :: insertEntry key value rest

theorem mem_insertEntry (key : κ) (value : ν) (entries : List (κ × ν)) (entry : κ × ν)
    (member : entry ∈ insertEntry key value entries) :
    entry = (key, value) ∨ entry ∈ entries := by
  induction entries with
  | nil => exact Or.inl (List.mem_singleton.mp member)
  | cons head rest ih =>
      unfold insertEntry at member
      split at member
      · exact List.mem_cons.mp member
      · split at member
        · exact Or.inr member
        · rcases List.mem_cons.mp member with atHead | inRest
          · exact Or.inr (List.mem_cons.mpr (Or.inl atHead))
          · rcases ih inRest with isNew | old
            · exact Or.inl isNew
            · exact Or.inr (List.mem_cons_of_mem head old)

theorem subset_insertEntry (key : κ) (value : ν) (entries : List (κ × ν)) (entry : κ × ν)
    (member : entry ∈ entries) : entry ∈ insertEntry key value entries := by
  induction entries with
  | nil => cases member
  | cons head rest ih =>
      unfold insertEntry
      split
      · exact List.mem_cons_of_mem _ member
      · split
        · exact member
        · rcases List.mem_cons.mp member with atHead | inRest
          · exact List.mem_cons.mpr (Or.inl atHead)
          · exact List.mem_cons_of_mem head (ih inRest)

theorem insertEntry_ascending (key : κ) (value : ν) (entries : List (κ × ν))
    (ascending : entries.Pairwise (fun first second => first.1 < second.1)) :
    (insertEntry key value entries).Pairwise (fun first second => first.1 < second.1) := by
  induction entries with
  | nil => exact List.pairwise_singleton _ _
  | cons head rest ih =>
      obtain ⟨headFirst, restAscending⟩ := List.pairwise_cons.mp ascending
      unfold insertEntry
      split
      · rename_i before
        apply List.Pairwise.cons _ ascending
        intro entry member
        rcases List.mem_cons.mp member with atHead | inRest
        · rw [atHead]
          exact before
        · exact lt_trans before (headFirst entry inRest)
      · split
        · exact ascending
        · rename_i notBefore differs
          apply List.Pairwise.cons _ (ih restAscending)
          intro entry member
          rcases mem_insertEntry key value rest entry member with isNew | old
          · rw [isNew]
            exact lt_of_le_of_ne (not_lt.mp notBefore) (Ne.symm differs)
          · exact headFirst entry old

def empty : OrderedMap κ ν := ⟨[], List.Pairwise.nil⟩

def find? (map : OrderedMap κ ν) (key : κ) : Option ν := map.entries.lookup key

/-- The map is unchanged where the key is there already. -/
def insert (map : OrderedMap κ ν) (key : κ) (value : ν) : OrderedMap κ ν :=
  ⟨insertEntry key value map.entries, insertEntry_ascending key value map.entries map.ascending⟩

def lastKey? (map : OrderedMap κ ν) : Option κ := map.entries.getLast?.map Prod.fst

def modify (map : OrderedMap κ ν) (key : κ) (change : ν → ν) : OrderedMap κ ν where
  entries := map.entries.map fun entry =>
    (entry.1, if entry.1 = key then change entry.2 else entry.2)
  ascending := map.ascending.map _ fun _ _ => id

def mapValues (map : OrderedMap κ ν) (change : ν → ν) : OrderedMap κ ν where
  entries := map.entries.map fun entry => (entry.1, change entry.2)
  ascending := map.ascending.map _ fun _ _ => id

@[simp] theorem find?_empty (key : κ) : (empty : OrderedMap κ ν).find? key = none := rfl

theorem mem_of_find? (map : OrderedMap κ ν) (key : κ) (value : ν)
    (found : map.find? key = some value) : (key, value) ∈ map.entries := by
  obtain ⟨before, after, split, _⟩ := List.lookup_eq_some_iff.mp found
  rw [split]
  exact List.mem_append_right before List.mem_cons_self

theorem find?_of_mem (map : OrderedMap κ ν) (key : κ) (value : ν)
    (member : (key, value) ∈ map.entries) : map.find? key = some value := by
  obtain ⟨before, after, split⟩ := List.append_of_mem member
  have ascending := map.ascending
  rw [split, List.pairwise_append] at ascending
  apply List.lookup_eq_some_iff.mpr
  refine ⟨before, after, split, ?_⟩
  intro entry earlier
  exact bne_iff_ne.mpr (ne_of_gt (ascending.2.2 entry earlier (key, value) List.mem_cons_self))

theorem lookup_insertEntry (key other : κ) (value : ν) (entries : List (κ × ν))
    (ascending : entries.Pairwise (fun first second => first.1 < second.1)) :
    (insertEntry key value entries).lookup other =
      if other = key then some ((entries.lookup key).getD value) else entries.lookup other := by
  induction entries with
  | nil =>
      rw [insertEntry, List.lookup_cons]
      by_cases same : other = key
      · rw [if_pos same, beq_iff_eq.mpr same]
        rfl
      · rw [if_neg same, beq_eq_false_iff_ne.mpr same]
  | cons head rest ih =>
      obtain ⟨headFirst, restAscending⟩ := List.pairwise_cons.mp ascending
      have missing : key < head.1 → (head :: rest).lookup key = none := by
        intro before
        apply List.lookup_eq_none_iff.mpr
        intro entry member
        apply bne_iff_ne.mpr
        rcases List.mem_cons.mp member with atHead | inRest
        · rw [atHead]
          exact ne_of_lt before
        · exact ne_of_lt (lt_trans before (headFirst entry inRest))
      unfold insertEntry
      split
      · rename_i before
        rw [List.lookup_cons, missing before]
        by_cases same : other = key
        · rw [if_pos same, beq_iff_eq.mpr same]
          rfl
        · rw [if_neg same, beq_eq_false_iff_ne.mpr same]
      · split
        · rename_i notBefore same
          by_cases isKey : other = key
          · rw [if_pos isKey, isKey, List.lookup_cons, beq_iff_eq.mpr same]
            rfl
          · rw [if_neg isKey]
        · rename_i notBefore differs
          rw [List.lookup_cons, List.lookup_cons, List.lookup_cons, ih restAscending,
            beq_eq_false_iff_ne.mpr differs]
          by_cases isKey : other = key
          · rw [if_pos isKey, if_pos isKey, beq_eq_false_iff_ne.mpr (isKey ▸ differs)]
          · rw [if_neg isKey, if_neg isKey]

theorem find?_insert (map : OrderedMap κ ν) (key other : κ) (value : ν) :
    (map.insert key value).find? other =
      if other = key then some ((map.find? key).getD value) else map.find? other :=
  lookup_insertEntry key other value map.entries map.ascending

theorem lookup_mapEntries (other : κ) (change : κ → ν → ν) (entries : List (κ × ν)) :
    (entries.map fun entry => (entry.1, change entry.1 entry.2)).lookup other =
      (entries.lookup other).map (change other) := by
  induction entries with
  | nil => rfl
  | cons head rest ih =>
      rw [List.map_cons, List.lookup_cons, List.lookup_cons, ih]
      by_cases atHead : other = head.1
      · rw [beq_iff_eq.mpr atHead, ← atHead]
        rfl
      · rw [beq_eq_false_iff_ne.mpr atHead]

theorem find?_mapValues (map : OrderedMap κ ν) (other : κ) (change : ν → ν) :
    (map.mapValues change).find? other = (map.find? other).map change :=
  lookup_mapEntries other (fun _ => change) map.entries

theorem find?_modify (map : OrderedMap κ ν) (key other : κ) (change : ν → ν) :
    (map.modify key change).find? other =
      if other = key then (map.find? key).map change else map.find? other := by
  have changed : (map.modify key change).find? other = (map.find? other).map fun value =>
      if other = key then change value else value :=
    lookup_mapEntries other (fun own value => if own = key then change value else value)
      map.entries
  rw [changed]
  by_cases same : other = key
  · subst same
    simp only [if_true]
  · simp only [if_neg same, Option.map_id']

theorem modify_modify (map : OrderedMap κ ν) (key : κ) (first second : ν → ν) :
    (map.modify key first).modify key second = map.modify key fun value => second (first value) := by
  unfold modify
  simp only [List.map_map, mk.injEq]
  apply List.map_congr_left
  intro entry _
  simp only [Function.comp_apply]
  split
  · rfl
  · rfl

theorem lastKey?_modify (map : OrderedMap κ ν) (key : κ) (change : ν → ν) :
    (map.modify key change).lastKey? = map.lastKey? := by
  rw [lastKey?, modify, List.getLast?_map, Option.map_map]
  rfl

theorem insertEntry_above (key : κ) (value : ν) (entries : List (κ × ν))
    (above : ∀ entry ∈ entries, entry.1 < key) :
    insertEntry key value entries = entries ++ [(key, value)] := by
  induction entries with
  | nil => rfl
  | cons head rest ih =>
      have less := above head List.mem_cons_self
      rw [insertEntry, if_neg (lt_asymm less), if_neg (ne_of_gt less),
        ih fun entry member => above entry (List.mem_cons_of_mem head member)]
      rfl

theorem lastKey?_insert_above (map : OrderedMap κ ν) (key : κ) (value : ν)
    (above : ∀ entry ∈ map.entries, entry.1 < key) :
    (map.insert key value).lastKey? = some key := by
  change (insertEntry key value map.entries).getLast?.map Prod.fst = some key
  rw [insertEntry_above key value map.entries above, List.getLast?_concat]
  rfl

theorem flatMap_find? {Item : Type*} (map : OrderedMap κ ν) (key : κ)
    (collect : κ × ν → List Item) (own : ∀ entry, entry.1 ≠ key → collect entry = []) :
    map.entries.flatMap collect =
      ((map.find? key).map fun value => collect (key, value)).getD [] := by
  have nothing : ∀ entries : List (κ × ν), (∀ entry ∈ entries, entry.1 ≠ key) →
      entries.flatMap collect = [] := by
    intro entries missing
    apply List.flatMap_eq_nil_iff.mpr
    intro entry member
    exact own entry (missing entry member)
  cases found : map.find? key with
  | none =>
      apply nothing
      intro entry member
      have differs := List.lookup_eq_none_iff.mp found entry member
      exact fun same => bne_iff_ne.mp differs same.symm
  | some value =>
      obtain ⟨before, after, split, missing⟩ := List.lookup_eq_some_iff.mp found
      have ascending := map.ascending
      rw [split, List.pairwise_append, List.pairwise_cons] at ascending
      rw [split, List.flatMap_append, List.flatMap_cons, nothing before, nothing after,
        List.nil_append, List.append_nil]
      · rfl
      · intro entry member
        exact ne_of_gt (ascending.2.1.1 entry member)
      · intro entry member
        exact fun same => bne_iff_ne.mp (missing entry member) same.symm

theorem sum_lookup [Fintype κ] (weight : ν → Nat) (entries : List (κ × ν))
    (ascending : entries.Pairwise (fun first second => first.1 < second.1)) :
    ∑ key, ((entries.lookup key).map weight).getD 0 =
      (entries.map fun entry => weight entry.2).sum := by
  induction entries with
  | nil => exact Finset.sum_const_zero
  | cons head rest ih =>
      obtain ⟨headFirst, restAscending⟩ := List.pairwise_cons.mp ascending
      have missing : rest.lookup head.1 = none := by
        apply List.lookup_eq_none_iff.mpr
        intro entry member
        exact bne_iff_ne.mpr (ne_of_lt (headFirst entry member))
      have split : ∀ key, (((head :: rest).lookup key).map weight).getD 0 =
          (if key = head.1 then weight head.2 else 0) +
            ((rest.lookup key).map weight).getD 0 := by
        intro key
        rw [List.lookup_cons]
        by_cases atHead : key = head.1
        · rw [if_pos atHead, beq_iff_eq.mpr atHead, atHead, missing]
          rfl
        · rw [if_neg atHead, beq_eq_false_iff_ne.mpr atHead, Nat.zero_add]
      rw [Finset.sum_congr rfl fun key _ => split key, Finset.sum_add_distrib,
        Finset.sum_ite_eq', if_pos (Finset.mem_univ head.1), ih restAscending, List.map_cons,
        List.sum_cons]

/-- Summing over the entries is summing over all keys, those that are not there
counting nothing. -/
theorem sum_find? [Fintype κ] (map : OrderedMap κ ν) (weight : ν → Nat) :
    ∑ key, ((map.find? key).map weight).getD 0 =
      (map.entries.map fun entry => weight entry.2).sum :=
  sum_lookup weight map.entries map.ascending

theorem mem_insert (map : OrderedMap κ ν) (key : κ) (value : ν) (entry : κ × ν)
    (member : entry ∈ (map.insert key value).entries) :
    entry = (key, value) ∨ entry ∈ map.entries :=
  mem_insertEntry key value map.entries entry member

theorem subset_insert (map : OrderedMap κ ν) (key : κ) (value : ν) (entry : κ × ν)
    (member : entry ∈ map.entries) : entry ∈ (map.insert key value).entries :=
  subset_insertEntry key value map.entries entry member

theorem new_mem_insert (map : OrderedMap κ ν) (key : κ) (value : ν)
    (missing : map.find? key = none) : (key, value) ∈ (map.insert key value).entries := by
  apply mem_of_find?
  rw [find?_insert, if_pos rfl, missing]
  rfl

theorem exists_lastKey (map : OrderedMap κ ν) (entry : κ × ν) (member : entry ∈ map.entries) :
    ∃ last, map.lastKey? = some last := by
  have filled : map.entries ≠ [] := List.ne_nil_of_mem member
  refine ⟨(map.entries.getLast filled).1, ?_⟩
  rw [lastKey?, List.getLast?_eq_some_getLast filled]
  rfl

theorem le_lastKey (map : OrderedMap κ ν) (last : κ) (isLast : map.lastKey? = some last)
    (entry : κ × ν) (member : entry ∈ map.entries) : entry.1 ≤ last := by
  obtain ⟨final, found, rfl⟩ := Option.map_eq_some_iff.mp isLast
  obtain ⟨before, split⟩ := List.getLast?_eq_some_iff.mp found
  have ascending := map.ascending
  rw [split, List.pairwise_append] at ascending
  rw [split] at member
  rcases List.mem_append.mp member with earlier | atEnd
  · exact le_of_lt (ascending.2.2 entry earlier final (List.mem_singleton.mpr rfl))
  · rw [List.mem_singleton.mp atEnd]

end OrderedMap
