/-
Queues kept as chains of nodes.

Each node has a link to the next one, which stays behind when the node leaves
the queue.  A chain that starts at the head and runs through the nodes of a list
to a missing link stands for that list, and the tail is its last node.
-/

import Mathlib.Data.List.Nodup

set_option autoImplicit false

namespace LinkedQueue

universe u

variable {Node : Type u}

def Links (next : Node → Option Node) : Option Node → List Node → Prop
  | head, [] => head = none
  | head, node :: rest => head = some node ∧ Links next (next node) rest

structure Holds (next : Node → Option Node) (head tail : Option Node) (list : List Node) :
    Prop where
  links : Links next head list
  last : tail = list.getLast?
  distinct : list.Nodup

theorem holds_empty (next : Node → Option Node) : Holds next none none [] :=
  ⟨rfl, rfl, List.nodup_nil⟩

theorem Links.congr {next other : Node → Option Node} (list : List Node) (head : Option Node)
    (links : Links next head list) (same : ∀ node ∈ list, other node = next node) :
    Links other head list := by
  induction list generalizing head with
  | nil => exact links
  | cons node rest ih =>
      obtain ⟨isHead, more⟩ := links
      refine ⟨isHead, ?_⟩
      rw [same node List.mem_cons_self]
      exact ih _ more fun later member => same later (List.mem_cons_of_mem node member)

theorem Holds.congr {next other : Node → Option Node} {head tail : Option Node} {list : List Node}
    (holds : Holds next head tail list) (same : ∀ node ∈ list, other node = next node) :
    Holds other head tail list :=
  ⟨holds.links.congr list head same, holds.last, holds.distinct⟩

theorem Links.unique {next : Node → Option Node} (first second : List Node) (head : Option Node)
    (atFirst : Links next head first) (atSecond : Links next head second) : first = second := by
  induction first generalizing second head with
  | nil =>
      cases second with
      | nil => rfl
      | cons node rest =>
          obtain ⟨isHead, _⟩ := atSecond
          rw [show head = none from atFirst] at isHead
          cases isHead
  | cons node rest ih =>
      obtain ⟨isHead, more⟩ := atFirst
      cases second with
      | nil =>
          rw [show head = none from atSecond] at isHead
          cases isHead
      | cons other others =>
          obtain ⟨alsoHead, later⟩ := atSecond
          rw [isHead, Option.some.injEq] at alsoHead
          subst alsoHead
          rw [ih others (next node) more later]

theorem Holds.pushFront {next other : Node → Option Node} {head tail : Option Node}
    {list : List Node} (holds : Holds next head tail list) (node : Node) (fresh : node ∉ list)
    (linked : other node = head) (same : ∀ kept ∈ list, other kept = next kept) :
    Holds other (some node) (if head = none then some node else tail) (node :: list) := by
  constructor
  · refine ⟨rfl, ?_⟩
    rw [linked]
    exact holds.links.congr list head same
  · cases list with
    | nil => exact if_pos holds.links
    | cons first rest =>
        have present : head ≠ none := by
          rw [holds.links.1]
          exact Option.some_ne_none first
        rw [if_neg present, holds.last, List.getLast?_cons_cons]
  · exact List.nodup_cons.mpr ⟨fresh, holds.distinct⟩

theorem Holds.popFront {next : Node → Option Node} {tail : Option Node} {node : Node}
    {list : List Node} (holds : Holds next (some node) tail list) :
    ∃ rest, list = node :: rest ∧
      Holds next (next node) (if next node = none then none else tail) rest := by
  obtain ⟨links, last, distinct⟩ := holds
  cases list with
  | nil => cases links
  | cons first rest =>
      obtain ⟨isHead, more⟩ := links
      obtain rfl := Option.some.inj isHead
      refine ⟨rest, rfl, more, ?_, (List.nodup_cons.mp distinct).2⟩
      cases rest with
      | nil => exact if_pos more
      | cons second others =>
          have present : next node ≠ none := by
            rw [more.1]
            exact Option.some_ne_none second
          rw [if_neg present, last, List.getLast?_cons_cons]

theorem Links.append {next other : Node → Option Node} (node : Node) (list : List Node)
    (head : Option Node) (links : Links next head list) (distinct : list.Nodup)
    (ended : other node = none) (last : ∀ tail, list.getLast? = some tail → other tail = some node)
    (same : ∀ kept ∈ list, list.getLast? ≠ some kept → other kept = next kept) :
    Links other (if head = none then some node else head) (list ++ [node]) := by
  induction list generalizing head with
  | nil =>
      rw [if_pos (show head = none from links)]
      exact ⟨rfl, ended⟩
  | cons first rest ih =>
      obtain ⟨isHead, more⟩ := links
      have present : head ≠ none := by
        rw [isHead]
        exact Option.some_ne_none first
      rw [if_neg present]
      refine ⟨isHead, ?_⟩
      obtain ⟨outside, restDistinct⟩ := List.nodup_cons.mp distinct
      cases rest with
      | nil =>
          rw [last first rfl]
          exact ⟨rfl, ended⟩
      | cons second others =>
          have inner : (first :: second :: others).getLast? = (second :: others).getLast? :=
            List.getLast?_cons_cons
          have notLast : (second :: others).getLast? ≠ some first := fun isLast =>
            outside (List.mem_of_getLast? isLast)
          have linked := ih _ more restDistinct
            (fun tail isLast => last tail (inner.trans isLast))
            fun kept member differs => same kept (List.mem_cons_of_mem first member)
              fun isLast => differs (inner.symm.trans isLast)
          rw [same first List.mem_cons_self fun isLast => notLast (inner.symm.trans isLast)]
          have here : next first ≠ none := by
            rw [more.1]
            exact Option.some_ne_none second
          rw [if_neg here] at linked
          exact linked

/-- A node behind the others: its own link is cut, and the old tail is linked to it. -/
theorem Holds.pushBack {next other : Node → Option Node} {head tail : Option Node}
    {list : List Node} (holds : Holds next head tail list) (node : Node) (fresh : node ∉ list)
    (ended : other node = none) (linked : ∀ old, tail = some old → other old = some node)
    (same : ∀ kept ∈ list, tail ≠ some kept → other kept = next kept) :
    Holds other (if head = none then some node else head) (some node) (list ++ [node]) := by
  constructor
  · rw [holds.last] at linked same
    exact holds.links.append node list head holds.distinct ended
      (fun old isLast => linked old isLast) same
  · exact (List.getLast?_concat).symm
  · apply List.nodup_append.mpr
    refine ⟨holds.distinct, List.nodup_singleton node, fun kept member last atEnd same => ?_⟩
    rw [List.mem_singleton.mp atEnd] at same
    exact fresh (same ▸ member)

end LinkedQueue
