/-
Several free lists in one set of nodes.

Each slot has a head, and the nodes of its list are chained by their links.  A
node is in one list at most, so what is linked in one list, and what is written
to a node outside, leaves the other lists alone.
-/

import AuthServer.Lib.LinkedQueue
import Mathlib.Logic.Function.Basic

set_option autoImplicit false

namespace FreeLists

universe u v

variable {Slot : Type u} {Node : Type v}

/-- The heads and links stand for these lists: each chain runs through the nodes
of its list and ends, no node comes twice, and no two lists share one. -/
structure Stands (link : Node → Option Node) (heads : Slot → Option Node)
    (lists : Slot → List Node) : Prop where
  links : ∀ slot, LinkedQueue.Links link (heads slot) (lists slot)
  distinct : ∀ slot, (lists slot).Nodup
  apart : ∀ slot other node, node ∈ lists slot → node ∈ lists other → slot = other

def Listed (lists : Slot → List Node) (node : Node) : Prop := ∃ slot, node ∈ lists slot

theorem stands_empty (link : Node → Option Node) :
    Stands link (fun _ : Slot => none) (fun _ => []) :=
  ⟨fun _ => rfl, fun _ => List.nodup_nil, fun _ _ _ member => absurd member List.not_mem_nil⟩

variable {link : Node → Option Node} {heads : Slot → Option Node} {lists : Slot → List Node}

theorem Stands.congr {other : Node → Option Node} (stands : Stands link heads lists)
    (same : ∀ node, Listed lists node → other node = link node) : Stands other heads lists := by
  refine ⟨fun slot => ?_, stands.distinct, stands.apart⟩
  exact (stands.links slot).congr _ _ fun node member => same node ⟨slot, member⟩

theorem Stands.write [DecidableEq Node] (stands : Stands link heads lists) (node : Node)
    (value : Option Node) (outside : ¬ Listed lists node) :
    Stands (Function.update link node value) heads lists := by
  refine ⟨fun slot => ?_, stands.distinct, stands.apart⟩
  refine (stands.links slot).congr _ _ fun kept member => Function.update_of_ne ?_ _ _
  intro same
  exact outside ⟨slot, same ▸ member⟩

variable [DecidableEq Slot]

theorem Stands.push [DecidableEq Node] (stands : Stands link heads lists) (slot : Slot)
    (node : Node) (outside : ¬ Listed lists node) :
    Stands (Function.update link node (heads slot)) (Function.update heads slot (some node))
      (Function.update lists slot (node :: lists slot)) := by
  have written := stands.write node (heads slot) outside
  constructor
  · intro at_
    by_cases here : at_ = slot
    · subst here
      rw [Function.update_self, Function.update_self]
      refine ⟨rfl, ?_⟩
      rw [Function.update_self]
      exact written.links at_
    · rw [Function.update_of_ne here, Function.update_of_ne here]
      exact written.links at_
  · refine (Function.forall_update_iff lists fun _ list => list.Nodup).mpr
      ⟨List.nodup_cons.mpr ⟨fun member => outside ⟨slot, member⟩, stands.distinct slot⟩, ?_⟩
    exact fun at_ _ => stands.distinct at_
  · -- A shared node was shared before, or it is the new one, which was nowhere.
    have before : ∀ at_ kept, kept ∈ Function.update lists slot (node :: lists slot) at_ →
        at_ = slot ∧ kept = node ∨ kept ∈ lists at_ := by
      intro at_ kept member
      by_cases here : at_ = slot
      · subst here
        rw [Function.update_self] at member
        exact (List.mem_cons.mp member).imp_left fun same => ⟨rfl, same⟩
      · rw [Function.update_of_ne here] at member
        exact Or.inr member
    intro first second kept inFirst inSecond
    rcases before first kept inFirst with ⟨rfl, rfl⟩ | old
    · rcases before second kept inSecond with ⟨rfl, _⟩ | old
      · rfl
      · exact absurd ⟨second, old⟩ outside
    · rcases before second kept inSecond with ⟨rfl, rfl⟩ | later
      · exact absurd ⟨first, old⟩ outside
      · exact stands.apart first second kept old later

theorem listed_push_iff (slot : Slot) (node other : Node) :
    Listed (Function.update lists slot (node :: lists slot)) other ↔
      other = node ∨ Listed lists other := by
  constructor
  · rintro ⟨at_, member⟩
    by_cases here : at_ = slot
    · subst here
      rw [Function.update_self] at member
      exact (List.mem_cons.mp member).imp_right fun inList => ⟨at_, inList⟩
    · rw [Function.update_of_ne here] at member
      exact Or.inr ⟨at_, member⟩
  · rintro (rfl | ⟨at_, member⟩)
    · refine ⟨slot, ?_⟩
      rw [Function.update_self]
      exact List.mem_cons_self
    · refine ⟨at_, ?_⟩
      by_cases here : at_ = slot
      · subst here
        rw [Function.update_self]
        exact List.mem_cons_of_mem node member
      · rw [Function.update_of_ne here]
        exact member

theorem Stands.pop (stands : Stands link heads lists) (slot : Slot) (node : Node)
    (first : heads slot = some node) :
    ∃ rest, lists slot = node :: rest ∧
      Stands link (Function.update heads slot (link node)) (Function.update lists slot rest) := by
  have links := stands.links slot
  rw [first] at links
  cases list : lists slot with
  | nil =>
      rw [list] at links
      cases links
  | cons other rest =>
      rw [list] at links
      obtain ⟨isHead, more⟩ := links
      obtain rfl := Option.some.inj isHead
      have within : ∀ at_ kept, kept ∈ Function.update lists slot rest at_ → kept ∈ lists at_ := by
        intro at_ kept member
        by_cases here : at_ = slot
        · subst here
          rw [Function.update_self] at member
          rw [list]
          exact List.mem_cons_of_mem node member
        · rw [Function.update_of_ne here] at member
          exact member
      have distinct := stands.distinct slot
      rw [list] at distinct
      refine ⟨rest, rfl, fun at_ => ?_, (Function.forall_update_iff lists fun _ list => list.Nodup).mpr
        ⟨(List.nodup_cons.mp distinct).2, fun at_ _ => stands.distinct at_⟩,
        fun at_ other kept inFirst inSecond =>
        stands.apart at_ other kept (within at_ kept inFirst) (within other kept inSecond)⟩
      · by_cases here : at_ = slot
        · subst here
          rw [Function.update_self, Function.update_self]
          exact more
        · rw [Function.update_of_ne here, Function.update_of_ne here]
          exact stands.links at_

theorem Stands.listed_pop_iff (stands : Stands link heads lists) (slot : Slot) (node other : Node)
    (rest : List Node) (list : lists slot = node :: rest) :
    Listed (Function.update lists slot rest) other ↔ Listed lists other ∧ other ≠ node := by
  have distinct := stands.distinct slot
  rw [list] at distinct
  have here : node ∈ lists slot := list ▸ List.mem_cons_self
  constructor
  · rintro ⟨at_, member⟩
    by_cases same : at_ = slot
    · subst same
      rw [Function.update_self] at member
      refine ⟨⟨at_, list ▸ List.mem_cons_of_mem node member⟩, ?_⟩
      rintro rfl
      exact (List.nodup_cons.mp distinct).1 member
    · rw [Function.update_of_ne same] at member
      refine ⟨⟨at_, member⟩, ?_⟩
      rintro rfl
      exact same (stands.apart at_ slot other member here)
  · rintro ⟨⟨at_, member⟩, different⟩
    refine ⟨at_, ?_⟩
    by_cases same : at_ = slot
    · subst same
      rw [list] at member
      rw [Function.update_self]
      exact (List.mem_cons.mp member).resolve_left different
    · rw [Function.update_of_ne same]
      exact member

end FreeLists
