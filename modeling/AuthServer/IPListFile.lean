/-
A whole block-list file, read line by line.

The text is what the stream delivers in text mode.  The loop of `Load` ends when
the stream has failed, which it does behind the last line and at a line that
does not fit into `buf`.
-/

import AuthServer.IPListLines
import AuthServer.Lib.InputStream

set_option autoImplicit false

namespace AuthServer

open InputStream RangeTable

namespace CIPList

def readLines (text : List UInt8) : List (List UInt8) := lines 1024 10 (ofText text)

def loadFile (text : List UInt8) : Option (List IPRecord) :=
  (readLines text).foldlM loadLine []

def handedOn (text : List UInt8) : List IPRecord := (readLines text).filterMap acceptLine

/-- Each line of the file is treated as if it were the only one. -/
def LinesIndependent (text : List UInt8) : Prop :=
  handedOn text = (pieces 10 text).flatMap handedOn

theorem acceptLine_proper (buf : List UInt8) (record : IPRecord)
    (accepted : acceptLine buf = some record) : record.begin < record.stop := by
  unfold acceptLine at accepted
  exact of_decide_eq_true (Option.filter_eq_some_iff.mp accepted).2

/-- The table comes from the records handed on, as `load` makes it. -/
theorem loadFile_eq (text : List UInt8) : loadFile text = load (handedOn text) := by
  unfold loadFile load handedOn
  generalize ([] : List IPRecord) = table
  induction readLines text generalizing table with
  | nil => rfl
  | cons line rest ih =>
      rw [List.foldlM_cons, loadLine_eq]
      cases accepted : acceptLine line with
      | none =>
          rw [List.filterMap_cons_none accepted]
          exact ih table
      | some record =>
          have proper := acceptLine_proper line record accepted
          rw [List.filterMap_cons_some accepted, List.foldlM_cons, loadRecord,
            if_neg (not_le_of_gt proper)]
          congr 1
          funext next
          exact ih next

/-! ### Lines that fit and lines that do not -/

theorem readLines_eq (text : List UInt8) :
    readLines text = (pieces 10 text).takeWhile fun piece => decide (piece.length < 1024) :=
  lines_ofText 1024 10 (by decide) text

theorem handedOn_line (line : List UInt8) (plain : 10 ∉ line) :
    handedOn line = if line.length ≤ 1023 then (acceptLine line).toList else [] := by
  unfold handedOn
  rw [readLines_eq]
  cases line with
  | nil => rfl
  | cons c line =>
      rw [pieces_last 10 c line plain]
      by_cases fits : (c :: line).length ≤ 1023
      · rw [if_pos fits, List.takeWhile_cons, if_pos (decide_eq_true (by omega))]
        cases accepted : acceptLine (c :: line) with
        | none => exact List.filterMap_cons_none accepted
        | some record => exact List.filterMap_cons_some accepted
      · rw [if_neg fits, List.takeWhile_cons, if_neg]
        · rfl
        · rw [decide_eq_true_iff]
          omega

theorem plain_of_mem_pieces (delim : UInt8) (text piece : List UInt8)
    (member : piece ∈ pieces delim text) : delim ∉ piece := by
  induction text generalizing piece with
  | nil => cases member
  | cons c rest ih =>
      unfold pieces at member
      split at member
      · rcases List.mem_cons.mp member with rfl | later
        · exact List.not_mem_nil
        · exact ih piece later
      · rename_i other
        cases behind : pieces delim rest with
        | nil =>
            rw [behind] at member
            obtain rfl := List.mem_singleton.mp member
            intro inside
            exact other (List.mem_singleton.mp inside).symm
        | cons first others =>
            rw [behind] at member
            rcases List.mem_cons.mp member with rfl | later
            · intro inside
              rcases List.mem_cons.mp inside with same | inFirst
              · exact other same.symm
              · exact ih first (behind ▸ List.mem_cons_self) inFirst
            · exact ih piece (behind ▸ List.mem_cons_of_mem first later)

/-- Stopping at the first item that does not fit loses nothing exactly when
nothing that counts comes behind an item that does not fit. -/
theorem filterMap_takeWhile_iff {Item Value : Type} (fits : Item → Bool)
    (accept : Item → Option Value) (single : Item → List Value) (items : List Item)
    (alone : ∀ item ∈ items,
      single item = if fits item = true then (accept item).toList else []) :
    (items.takeWhile fits).filterMap accept = items.flatMap single ↔
      items.Pairwise fun earlier later => single later ≠ [] → fits earlier = true := by
  induction items with
  | nil => exact ⟨fun _ => List.Pairwise.nil, fun _ => rfl⟩
  | cons item rest ih =>
      have first := alone item List.mem_cons_self
      have others := ih fun other member => alone other (List.mem_cons_of_mem item member)
      rw [List.pairwise_cons, List.flatMap_cons]
      by_cases fitting : fits item = true
      · rw [if_pos fitting] at first
        have whole : ((item :: rest).takeWhile fits).filterMap accept =
            single item ++ (rest.takeWhile fits).filterMap accept := by
          rw [List.takeWhile_cons, if_pos fitting, first]
          cases accepted : accept item with
          | none => exact List.filterMap_cons_none accepted
          | some value => exact List.filterMap_cons_some accepted
        rw [whole, List.append_cancel_left_eq, others]
        exact ⟨fun later => ⟨fun _ _ _ => fitting, later⟩, And.right⟩
      · rw [if_neg fitting] at first
        rw [List.takeWhile_cons, if_neg fitting, first, List.nil_append, List.filterMap_nil]
        constructor
        · intro lost
          have none : ∀ other ∈ rest, single other = [] :=
            List.flatMap_eq_nil_iff.mp lost.symm
          refine ⟨fun other member counts => absurd (none other member) counts, ?_⟩
          exact List.pairwise_of_forall_mem_list fun _ _ other member counts =>
            absurd (none other member) counts
        · intro given
          symm
          apply List.flatMap_eq_nil_iff.mpr
          intro other member
          by_contra counts
          exact fitting (given.1 other member counts)

/-- Exactly the lines that are too long for `buf` make the ones behind them be
skipped. -/
theorem linesIndependent_iff (text : List UInt8) :
    LinesIndependent text ↔
      (pieces 10 text).Pairwise fun earlier later =>
        handedOn later ≠ [] → earlier.length ≤ 1023 := by
  have alone : ∀ line ∈ pieces 10 text, handedOn line =
      if decide (line.length < 1024) = true then (acceptLine line).toList else [] := by
    intro line member
    rw [handedOn_line line (plain_of_mem_pieces 10 text line member)]
    simp only [decide_eq_true_eq, Nat.lt_succ_iff]
  have exact_ := filterMap_takeWhile_iff (fun line => decide (line.length < 1024)) acceptLine
    handedOn (pieces 10 text) alone
  simp only [decide_eq_true_eq, Nat.lt_succ_iff] at exact_
  unfold LinesIndependent
  rw [← exact_, handedOn, readLines_eq]
  simp only [Nat.lt_succ_iff]

/-- A line of 1024 characters, and behind it the address 1.2.3.4. -/
theorem overlong_line_ends_file : ¬ ∀ text : List UInt8, LinesIndependent text := by
  intro claimed
  let address : List UInt8 := [49, 46, 50, 46, 51, 46, 52]
  have plain : (10 : UInt8) ∉ List.replicate 1024 (120 : UInt8) := by
    intro member
    exact absurd (List.eq_of_mem_replicate member) (by decide)
  have split := pieces_line 10 _ address plain
  have independent := claimed (List.replicate 1024 120 ++ 10 :: address)
  have long : ¬ decide ((List.replicate 1024 (120 : UInt8)).length < 1024) = true := by
    rw [List.length_replicate]
    decide
  have nothing : handedOn (List.replicate 1024 120 ++ 10 :: address) = [] := by
    rw [handedOn, readLines_eq, split, List.takeWhile_cons, if_neg long]
    rfl
  have onItsOwn : handedOn address = [⟨0x01020304, 0x01020305⟩] := by
    rw [handedOn_line address (by decide)]
    decide
  rw [LinesIndependent, nothing, split] at independent
  have skipped := List.flatMap_eq_nil_iff.mp independent.symm address (by decide)
  rw [onItsOwn] at skipped
  exact List.cons_ne_nil _ _ skipped

end CIPList

end AuthServer
