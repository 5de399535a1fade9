/-
The block lists: merging address ranges into a table and looking one up.

A record is what one line of the file denotes; `IPListLines` says how a line is
read.  `record.begin - 1` wraps as unsigned arithmetic does.
`std::upper_bound` asks for a table that is partitioned by the value searched;
on any other table it has no specified result, and the model has none either.
-/

import AuthServer.InAddr
import AuthServer.Lib.RangeTable
import Mathlib.Data.List.Induction

set_option autoImplicit false

namespace AuthServer

open RangeTable

abbrev IPRecord := Range UInt32

namespace CIPList

/-- One accepted record put into the table.  `coalesce` is the `while` loop
that erases followers, and the final `insert`. -/
def merge (table : List IPRecord) (record : IPRecord) : Option (List IPRecord) :=
  (upperBound table (record.begin - 1)).map fun it =>
    match table.drop it with
    | [] => table.take it ++ coalesce record []
    | found :: rest =>
        if found.begin ≤ record.begin - 1 then
          if record.stop ≤ found.stop then table
          else table.take it ++ coalesce { record with begin := found.begin } rest
        else table.take it ++ coalesce record (found :: rest)

def loadRecord (table : List IPRecord) (record : IPRecord) : Option (List IPRecord) :=
  if record.stop ≤ record.begin then some table else merge table record

def load (records : List IPRecord) : Option (List IPRecord) :=
  records.foldlM loadRecord []

def ipExists (table : List IPRecord) (ipAddr : InAddr) : Option Bool :=
  lookup table ipAddr.hostOrder

/-- The table built from the records answers every address as the records do. -/
def Exact (records : List IPRecord) : Prop :=
  ∃ table, load records = some table ∧
    ∀ ipAddr : InAddr,
      ipExists table ipAddr = some (decide (Covered records ipAddr.hostOrder))

/-- A record that begins at 0.0.0.0 comes when the addresses covered so far are
the lowest ones, none of them beyond its own. -/
def BottomFits (earlier : List IPRecord) (record : IPRecord) : Prop :=
  record.begin = 0 → 0 < record.stop →
    ∀ value, Covered earlier value →
      value < record.stop ∧ ∀ lower ≤ value, Covered earlier lower

def BottomRecordsFit (records : List IPRecord) : Prop :=
  ∀ earlier record, earlier ++ [record] <+: records → BottomFits earlier record

/-! ### One record -/

theorem le_pred_iff (value limit : UInt32) (positive : 0 < limit) :
    value ≤ limit - 1 ↔ value < limit := by
  have bound := UInt32.lt_iff_toNat_lt.mp positive
  have one : (1 : UInt32) ≤ limit := UInt32.le_iff_toNat_le.mpr bound
  rw [UInt32.le_iff_toNat_le, UInt32.lt_iff_toNat_lt, UInt32.toNat_sub_of_le _ _ one]
  change value.toNat ≤ limit.toNat - 1 ↔ _
  have notZero : 0 < limit.toNat := bound
  omega

theorem merge_above_bottom (table : List IPRecord) (record : IPRecord)
    (layered : Layered table) (proper : record.begin < record.stop)
    (positive : 0 < record.begin) :
    ∃ next, merge table record = some next ∧ Layered next ∧
      ∀ value, Covered next value ↔ Covered table value ∨ record.Contains value := by
  obtain ⟨before, after, rfl, point, ends, reaches⟩ := layered.cut (record.begin - 1)
  have apart : ∀ other ∈ before, Precedes other record := fun other member =>
    Or.inl ((le_pred_iff _ _ positive).mp (ends other member))
  unfold merge
  rw [point, Option.map_some, List.drop_left, List.take_left]
  refine ⟨_, rfl, ?_⟩
  cases after with
  | nil =>
      have added := covered_inserted before record [] proper (List.forall_mem_nil _)
      rw [List.append_nil] at added ⊢
      exact ⟨coalesce_layered before record [] layered proper apart, added⟩
  | cons found rest =>
      have foundProper := layered.proper found (List.mem_append_right _ List.mem_cons_self)
      have parts := List.pairwise_append.mp layered.ordered
      have above : ∀ other ∈ rest, found.begin ≤ other.begin := fun other member =>
        ((List.rel_of_pairwise_cons parts.2.1 member).bounds foundProper
          (layered.proper other
            (List.mem_append_right _ (List.mem_cons_of_mem found member)))).1
      have touches : record.begin ≤ found.stop := by
        apply le_of_not_gt
        intro below
        exact absurd ((le_pred_iff _ _ positive).mpr below)
          (not_le_of_gt (reaches found List.mem_cons_self))
      simp only
      split
      · rename_i begins
        have lower : found.begin < record.begin := (le_pred_iff _ _ positive).mp begins
        split
        · rename_i swallowed
          refine ⟨layered, fun value => ⟨Or.inl, ?_⟩⟩
          intro given
          rcases given with old | ⟨inside, within⟩
          · exact old
          · exact ⟨found, List.mem_append_right _ List.mem_cons_self,
              le_trans (le_of_lt lower) inside, lt_of_lt_of_le within swallowed⟩
        · rename_i longer
          have grown : found.stop ≤ record.stop := le_of_lt (lt_of_not_ge longer)
          have widened : found.begin < record.stop := lt_trans lower proper
          constructor
          · apply coalesce_layered before _ rest layered.erase widened
            intro other member
            exact (parts.2.2 other member found List.mem_cons_self).grow record.stop grown
          · intro value
            have hull := Range.contains_hull found record value (le_of_lt lower) touches grown
            rw [covered_inserted before ⟨found.begin, record.stop⟩ rest widened above value,
              covered_append, covered_append, covered_cons, hull]
            grind
      · rename_i higher
        have lower : record.begin ≤ found.begin := by
          apply le_of_not_gt
          intro below
          exact higher ((le_pred_iff _ _ positive).mpr below)
        have allAbove : ∀ other ∈ found :: rest, record.begin ≤ other.begin := by
          intro other member
          rcases List.mem_cons.mp member with rfl | later
          · exact lower
          · exact le_trans lower (above other later)
        exact ⟨coalesce_layered before record _ layered proper apart,
          covered_inserted before record (found :: rest) proper allAbove⟩

/-- At the bottom of the address space `begin - 1` is the greatest value, so
nothing ends above it and the record goes to the end of the table. -/
theorem merge_at_bottom (table : List IPRecord) (record : IPRecord)
    (layered : Layered table) (bottom : record.begin = 0) :
    merge table record = some (table ++ [record]) := by
  obtain ⟨before, after, rfl, point, _, reaches⟩ := layered.cut (record.begin - 1)
  have none : after = [] := by
    cases after with
    | nil => rfl
    | cons found rest =>
        have impossible := UInt32.lt_iff_toNat_lt.mp (reaches found List.mem_cons_self)
        have bound := found.stop.toNat_lt
        rw [bottom] at impossible
        change 4294967295 < found.stop.toNat at impossible
        omega
  subst none
  rw [List.append_nil] at point ⊢
  unfold merge
  rw [point, Option.map_some, List.drop_length, List.take_length]
  rfl

theorem bottomFits_iff (table earlier : List IPRecord) (record : IPRecord)
    (layered : Layered table) (bottom : record.begin = 0) (positive : 0 < record.stop)
    (same : ∀ value, Covered table value ↔ Covered earlier value) :
    BottomFits earlier record ↔
      ∀ other ∈ table, other.begin = record.begin ∧ other.stop ≤ record.stop := by
  have least : ∀ value : UInt32, record.begin ≤ value := by
    intro value
    rw [bottom, UInt32.le_iff_toNat_le]
    exact Nat.zero_le _
  rw [layered.initial_segment record.begin record.stop least]
  constructor
  · intro fits value covered
    obtain ⟨below, segment⟩ := fits bottom positive value ((same value).mp covered)
    exact ⟨below, fun lower under => (same lower).mpr (segment lower under)⟩
  · intro segment _ _ value covered
    obtain ⟨below, under⟩ := segment value ((same value).mpr covered)
    exact ⟨below, fun lower within => (same lower).mp (under lower within)⟩

/-- A record that fits keeps the table layered and adds what it contains. -/
theorem loadRecord_fits (table earlier : List IPRecord) (record : IPRecord)
    (layered : Layered table)
    (same : ∀ value, Covered table value ↔ Covered earlier value)
    (fits : BottomFits earlier record) :
    ∃ next, loadRecord table record = some next ∧ Layered next ∧
      ∀ value, Covered next value ↔ Covered (earlier ++ [record]) value := by
  have added : ∀ value, Covered (earlier ++ [record]) value ↔
      Covered table value ∨ record.Contains value := by
    intro value
    rw [covered_append, covered_cons, same value]
    simp only [covered_nil, or_false]
  unfold loadRecord
  by_cases improper : record.stop ≤ record.begin
  · rw [if_pos improper]
    refine ⟨table, rfl, layered, fun value => ?_⟩
    rw [added]
    refine ⟨Or.inl, ?_⟩
    intro given
    rcases given with old | ⟨begins, ends⟩
    · exact old
    · exact absurd (lt_of_le_of_lt begins ends) (not_lt_of_ge improper)
  · rw [if_neg improper]
    have proper : record.begin < record.stop := lt_of_not_ge improper
    by_cases bottom : record.begin = 0
    · rw [merge_at_bottom table record layered bottom]
      have positive : 0 < record.stop := bottom ▸ proper
      have nested := (bottomFits_iff table earlier record layered bottom positive same).mp fits
      refine ⟨_, rfl, ?_, fun value => ?_⟩
      · apply coalesce_layered table record [] ?_ proper fun other member =>
          Or.inr (nested other member)
        rw [List.append_nil]
        exact layered
      · rw [added, covered_append, covered_cons]
        simp only [covered_nil, or_false]
    · have positive : 0 < record.begin := by
        rw [UInt32.lt_iff_toNat_lt]
        refine Nat.pos_of_ne_zero fun zero => bottom ?_
        exact UInt32.toNat_inj.mp zero
      obtain ⟨next, merged, nextLayered, covers⟩ :=
        merge_above_bottom table record layered proper positive
      exact ⟨next, merged, nextLayered, fun value => (covers value).trans (added value).symm⟩

/-! ### All records -/

theorem load_append (records : List IPRecord) (record : IPRecord) :
    load (records ++ [record]) =
      (load records).bind fun table => loadRecord table record := by
  unfold load
  rw [List.foldlM_append]
  cases List.foldlM loadRecord [] records with
  | none => rfl
  | some table =>
      change (loadRecord table record).bind some = loadRecord table record
      cases loadRecord table record with
      | none => rfl
      | some next => rfl

theorem bottomRecordsFit_append (records : List IPRecord) (record : IPRecord) :
    BottomRecordsFit (records ++ [record]) ↔
      BottomRecordsFit records ∧ BottomFits records record := by
  constructor
  · intro fit
    refine ⟨fun earlier last within => ?_, fit records record (List.prefix_refl _)⟩
    exact fit earlier last (within.trans (List.prefix_append _ _))
  · intro given earlier last within
    obtain ⟨fit, fits⟩ := given
    rcases List.prefix_concat_iff.mp within with whole | inside
    · obtain ⟨rfl, rfl⟩ := List.append_inj' whole rfl |>.imp id fun same =>
        (List.cons.inj same).1
      exact fits
    · exact fit earlier last inside

theorem load_layered (records : List IPRecord) (fit : BottomRecordsFit records) :
    ∃ table, load records = some table ∧ Layered table ∧
      ∀ value, Covered table value ↔ Covered records value := by
  induction records using List.reverseRecOn with
  | nil => exact ⟨[], rfl, layered_nil, fun _ => Iff.rfl⟩
  | append_singleton records record ih =>
      obtain ⟨earlierFit, fits⟩ := (bottomRecordsFit_append records record).mp fit
      obtain ⟨table, loaded, layered, same⟩ := ih earlierFit
      obtain ⟨next, stepped, nextLayered, covers⟩ :=
        loadRecord_fits table records record layered same fits
      refine ⟨next, ?_, nextLayered, covers⟩
      rw [load_append, loaded, Option.bind_some, stepped]

theorem exact_of_bottomRecordsFit (records : List IPRecord)
    (fit : BottomRecordsFit records) : Exact records := by
  obtain ⟨table, loaded, layered, same⟩ := load_layered records fit
  refine ⟨table, loaded, fun ipAddr => ?_⟩
  rw [ipExists, layered.lookup_eq]
  congr 1
  rw [decide_eq_decide]
  exact same _

/-- A bottom record that does not fit spoils the lookups at once. -/
theorem bottomFits_of_exact (records : List IPRecord) (record : IPRecord)
    (fit : BottomRecordsFit records) (exact_ : Exact (records ++ [record])) :
    BottomFits records record := by
  intro bottom positive
  obtain ⟨table, loaded, layered, same⟩ := load_layered records fit
  obtain ⟨final, loadedAll, answers⟩ := exact_
  have proper : ¬ record.stop ≤ record.begin := by
    rw [bottom]
    exact not_le_of_gt positive
  rw [load_append, loaded, Option.bind_some, loadRecord, if_neg proper,
    merge_at_bottom table record layered bottom, Option.some.injEq] at loadedAll
  subst loadedAll
  have least : ∀ value : UInt32, record.begin ≤ value := by
    intro value
    rw [bottom, UInt32.le_iff_toNat_le]
    exact Nat.zero_le _
  have nested := layered.append_of_lookup record least fun value => by
    obtain ⟨ipAddr, rfl⟩ := InAddr.hostOrder_surjective value
    apply (answers ipAddr).trans (congrArg some ?_)
    rw [decide_eq_decide, covered_append, covered_append, same]
  exact (bottomFits_iff table records record layered bottom positive same).mpr nested
    bottom positive

/-- After every record of a file the table answers all addresses as the
records read so far do, exactly when each record beginning at 0.0.0.0 fits. -/
theorem lookups_exact_iff (records : List IPRecord) :
    (∀ part, part <+: records → Exact part) ↔ BottomRecordsFit records := by
  constructor
  · intro allExact
    induction records using List.reverseRecOn with
    | nil =>
        intro earlier record within
        have none := List.prefix_nil.mp within
        exact absurd none (List.append_ne_nil_of_right_ne_nil _ (List.cons_ne_nil _ _))
    | append_singleton records record ih =>
        have fit := ih fun part within =>
          allExact part (within.trans (List.prefix_append _ _))
        exact (bottomRecordsFit_append records record).mpr
          ⟨fit, bottomFits_of_exact records record fit (allExact _ (List.prefix_refl _))⟩
  · intro fit part within
    exact exact_of_bottomRecordsFit part fun earlier record inside =>
      fit earlier record (inside.trans within)

/-- 10.20 and then 0.5: the second record lands behind the first, where the
search for 0.0.0.3 does not reach it. -/
theorem bottom_record_lost :
    ¬ ∀ records : List IPRecord, (∀ record ∈ records, record.begin < record.stop) →
      ∃ table, load records = some table ∧ ∀ ipAddr : InAddr,
        ipExists table ipAddr = some true ↔ Covered records ipAddr.hostOrder := by
  intro claimed
  obtain ⟨table, loaded, answers⟩ := claimed [⟨10, 20⟩, ⟨0, 5⟩] (by decide)
  have built : load [⟨10, 20⟩, ⟨0, 5⟩] = some [⟨10, 20⟩, ⟨0, 5⟩] := by decide
  rw [built, Option.some.injEq] at loaded
  subst loaded
  have missed : ipExists [⟨10, 20⟩, ⟨0, 5⟩] ⟨0, 0, 0, 3⟩ = some false := by decide
  have found := (answers ⟨0, 0, 0, 3⟩).mpr (by decide)
  rw [missed] at found
  contradiction

end CIPList

end AuthServer
