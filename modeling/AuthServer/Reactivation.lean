/-
The reactivation window of the configuration.

`Load` parses two points of time and puts them in order by parsing the strings
crosswise; `IsReactivationActive` looks at them later.  Of a `SYSTEMTIME` only
the fields that are used are kept.  A setting that is missing is `none`.
-/

import AuthServer.Lib.CScan
import AuthServer.Lib.Comparison
import Mathlib.Order.Lattice

set_option autoImplicit false

namespace AuthServer

open CFormat CScan Comparison

instance wordLinearOrder : LinearOrder UInt16 where
  le_refl := UInt16.le_refl
  le_trans _ _ _ := UInt16.le_trans
  lt_iff_le_not_ge first second := by
    rw [UInt16.lt_iff_toNat_lt, UInt16.le_iff_toNat_le, UInt16.le_iff_toNat_le]
    exact lt_iff_le_not_ge
  le_antisymm _ _ := UInt16.le_antisymm
  le_total := UInt16.le_total
  toDecidableLE := fun _ _ => inferInstance
  toDecidableEq := instDecidableEqUInt16
  toDecidableLT := fun _ _ => inferInstance

structure SystemTime where
  wYear : UInt16
  wMonth : UInt16
  wDay : UInt16
  wHour : UInt16
  wMinute : UInt16
  deriving DecidableEq

def toWord (value : Int32) : UInt16 := UInt16.ofNat (value.toInt % 65536).toNat

namespace SystemTime

def key (time : SystemTime) : UInt16 ×ₗ UInt16 ×ₗ UInt16 ×ₗ UInt16 ×ₗ UInt16 :=
  toLex (time.wYear, toLex (time.wMonth, toLex (time.wDay, toLex (time.wHour, time.wMinute))))

end SystemTime

structure ReactivationSettings where
  reactivation : Int32
  reactivationStart : SystemTime
  reactivationEnd : SystemTime

namespace Config

def clearDateTime (_time : SystemTime) : SystemTime := ⟨0, 0, 0, 0, 0⟩

def dateTimeFormat : List Directive :=
  [.int, .char 47, .int, .char 47, .int, .blank, .int, .char 58, .int]

def dateTimestringToSystemTime (ints : IntStore) (time : SystemTime) (str : Option (List UInt8)) :
    Bool × SystemTime :=
  let cleared := clearDateTime time
  match str with
  | none => (false, cleared)
  | some text =>
      match sscanf ints dateTimeFormat text with
      | [month, day, year, hour, minute] =>
          (true, ⟨toWord year, toWord month, toWord day, toWord hour, toWord minute⟩)
      | _ => (false, cleared)

def compareDateTime (time1 time2 : SystemTime) : Int :=
  if time1.wYear ≠ time2.wYear then
    if time1.wYear < time2.wYear then -1 else 1
  else if time1.wMonth ≠ time2.wMonth then
    if time1.wMonth < time2.wMonth then -1 else 1
  else if time1.wDay ≠ time2.wDay then
    if time1.wDay < time2.wDay then -1 else 1
  else if time1.wHour ≠ time2.wHour then
    if time1.wHour < time2.wHour then -1 else 1
  else if time1.wMinute ≠ time2.wMinute then
    if time1.wMinute < time2.wMinute then -1 else 1
  else 0

def isValidDateTime (time : SystemTime) : Bool :=
  time.wYear ≠ 0 ∧ time.wMonth ≠ 0 ∧ time.wDay ≠ 0

/-- The part of `Load` about the window; `start` and `finish` are what `Get` finds. -/
def loadReactivation (ints : IntStore) (before : ReactivationSettings) (reactivation : Int32)
    (start finish : Option (List UInt8)) : ReactivationSettings :=
  let startRead := dateTimestringToSystemTime ints before.reactivationStart start
  if startRead.1 then
    let endRead := dateTimestringToSystemTime ints before.reactivationEnd finish
    if endRead.1 then
      if compareDateTime startRead.2 endRead.2 ≠ -1 then
        let endAgain := dateTimestringToSystemTime ints endRead.2 start
        let startAgain := dateTimestringToSystemTime ints startRead.2 finish
        ⟨reactivation, startAgain.2, endAgain.2⟩
      else ⟨reactivation, startRead.2, endRead.2⟩
    else ⟨reactivation, clearDateTime startRead.2, clearDateTime endRead.2⟩
  else ⟨reactivation, clearDateTime startRead.2, clearDateTime before.reactivationEnd⟩

def isReactivationActive (settings : ReactivationSettings) (now : SystemTime) : Bool :=
  if settings.reactivation ≠ 0 then true
  else if ¬ isValidDateTime settings.reactivationStart ∨
      ¬ isValidDateTime settings.reactivationEnd then false
  else if compareDateTime settings.reactivationStart now ≤ 0 ∧
      compareDateTime now settings.reactivationEnd ≤ 0 then true
  else false

/-! ### What the window is -/

def parsed (ints : IntStore) (str : Option (List UInt8)) : Option SystemTime :=
  str.bind fun text =>
    match sscanf ints dateTimeFormat text with
    | [month, day, year, hour, minute] =>
        some ⟨toWord year, toWord month, toWord day, toWord hour, toWord minute⟩
    | _ => none

/-- Between the smaller and the larger of two valid times. -/
def WithinWindow (ints : IntStore) (start finish : Option (List UInt8)) (now : SystemTime) : Prop :=
  ∃ first second, parsed ints start = some first ∧ parsed ints finish = some second ∧
    isValidDateTime first = true ∧ isValidDateTime second = true ∧
    min first.key second.key ≤ now.key ∧ now.key ≤ max first.key second.key

theorem compareDateTime_tells (time1 time2 : SystemTime) :
    Tells (compareDateTime time1 time2) time1.key time2.key :=
  ((((tells_field time1.wMinute time2.wMinute).before time1.wHour time2.wHour).before
    time1.wDay time2.wDay).before time1.wMonth time2.wMonth).before time1.wYear time2.wYear

theorem dateTimestringToSystemTime_eq (ints : IntStore) (time : SystemTime)
    (str : Option (List UInt8)) :
    dateTimestringToSystemTime ints time str =
      match parsed ints str with
      | none => (false, ⟨0, 0, 0, 0, 0⟩)
      | some read => (true, read) := by
  cases str with
  | none => rfl
  | some text =>
      unfold dateTimestringToSystemTime parsed
      rw [Option.bind_some]
      simp only
      split
      · rfl
      · rfl

/-- In the right order the window is what is compared. -/
theorem isReactivationActive_iff (start finish now : SystemTime) :
    isReactivationActive ⟨0, start, finish⟩ now = true ↔
      isValidDateTime start = true ∧ isValidDateTime finish = true ∧
        start.key ≤ now.key ∧ now.key ≤ finish.key := by
  rw [← (compareDateTime_tells start now).le_zero_iff,
    ← (compareDateTime_tells now finish).le_zero_iff]
  unfold isReactivationActive
  rw [if_neg (not_not.mpr rfl)]
  by_cases valid : isValidDateTime start = true ∧ isValidDateTime finish = true
  · rw [if_neg (by
      rw [not_or, not_not, not_not]
      exact valid), and_iff_right valid.1, and_iff_right valid.2]
    split
    · rename_i inside
      exact iff_of_true rfl inside
    · rename_i outside
      exact iff_of_false Bool.false_ne_true outside
  · rw [if_pos (by
      rw [← not_and_or]
      exact valid)]
    refine iff_of_false Bool.false_ne_true fun given => valid ⟨given.1, given.2.1⟩

/-- `Load` keeps two times that parse, the smaller one first. -/
theorem loadReactivation_parsed (ints : IntStore) (before : ReactivationSettings)
    (reactivation : Int32) (start finish : Option (List UInt8)) (first second : SystemTime)
    (startRead : parsed ints start = some first) (endRead : parsed ints finish = some second) :
    loadReactivation ints before reactivation start finish =
      if second.key ≤ first.key then ⟨reactivation, second, first⟩
      else ⟨reactivation, first, second⟩ := by
  unfold loadReactivation
  simp only [dateTimestringToSystemTime_eq, startRead, endRead, if_true]
  by_cases order : second.key ≤ first.key
  · rw [if_pos ((compareDateTime_tells first second).ne_less_iff.mpr order), if_pos order]
  · rw [if_neg fun differs => order ((compareDateTime_tells first second).ne_less_iff.mp differs),
      if_neg order]

theorem loadReactivation_unparsed (ints : IntStore) (before : ReactivationSettings)
    (reactivation : Int32) (start finish : Option (List UInt8))
    (missing : parsed ints start = none ∨ parsed ints finish = none) :
    loadReactivation ints before reactivation start finish =
      ⟨reactivation, ⟨0, 0, 0, 0, 0⟩, ⟨0, 0, 0, 0, 0⟩⟩ := by
  unfold loadReactivation
  simp only [dateTimestringToSystemTime_eq]
  cases startRead : parsed ints start with
  | none => rfl
  | some first =>
      cases endRead : parsed ints finish with
      | none => rfl
      | some second =>
          rw [startRead, endRead] at missing
          rcases missing with impossible | impossible
          · cases impossible
          · cases impossible

theorem loadReactivation_flag (ints : IntStore) (before : ReactivationSettings)
    (reactivation : Int32) (start finish : Option (List UInt8)) :
    (loadReactivation ints before reactivation start finish).reactivation = reactivation := by
  unfold loadReactivation
  simp only
  split
  · split
    · split
      · rfl
      · rfl
    · rfl
  · rfl

theorem withinWindow_comm (ints : IntStore) (start finish : Option (List UInt8))
    (now : SystemTime) :
    WithinWindow ints start finish now ↔ WithinWindow ints finish start now := by
  constructor
  · rintro ⟨first, second, startRead, endRead, firstValid, secondValid, above, below⟩
    rw [min_comm] at above
    rw [max_comm] at below
    exact ⟨second, first, endRead, startRead, secondValid, firstValid, above, below⟩
  · rintro ⟨first, second, startRead, endRead, firstValid, secondValid, above, below⟩
    rw [min_comm] at above
    rw [max_comm] at below
    exact ⟨second, first, endRead, startRead, secondValid, firstValid, above, below⟩

theorem isReactivationActive_flag (settings : ReactivationSettings) (now : SystemTime)
    (flag : settings.reactivation ≠ 0) : isReactivationActive settings now = true :=
  if_pos flag

theorem load_active_iff (ints : IntStore) (before : ReactivationSettings) (reactivation : Int32)
    (start finish : Option (List UInt8)) (now : SystemTime) :
    isReactivationActive (loadReactivation ints before reactivation start finish) now = true ↔
      reactivation ≠ 0 ∨ WithinWindow ints start finish now := by
  by_cases flag : reactivation ≠ 0
  · refine iff_of_true (isReactivationActive_flag _ now ?_) (Or.inl flag)
    rw [loadReactivation_flag]
    exact flag
  · obtain rfl := not_not.mp flag
    rw [or_iff_right flag]
    cases startRead : parsed ints start with
    | none =>
        rw [loadReactivation_unparsed ints before 0 start finish (Or.inl startRead)]
        refine iff_of_false Bool.false_ne_true ?_
        rintro ⟨first, second, read, _⟩
        rw [startRead] at read
        cases read
    | some first =>
        cases endRead : parsed ints finish with
        | none =>
            rw [loadReactivation_unparsed ints before 0 start finish (Or.inr endRead)]
            refine iff_of_false Bool.false_ne_true ?_
            rintro ⟨other, second, _, read, _⟩
            rw [endRead] at read
            cases read
        | some second =>
            rw [loadReactivation_parsed ints before 0 start finish first second startRead endRead]
            have window : WithinWindow ints start finish now ↔
                isValidDateTime first = true ∧ isValidDateTime second = true ∧
                  min first.key second.key ≤ now.key ∧ now.key ≤ max first.key second.key := by
              constructor
              · rintro ⟨other, another, firstRead, secondRead, inside⟩
                rw [startRead, Option.some.injEq] at firstRead
                rw [endRead, Option.some.injEq] at secondRead
                rw [firstRead, secondRead]
                exact inside
              · intro inside
                exact ⟨first, second, startRead, endRead, inside⟩
            rw [window]
            by_cases order : second.key ≤ first.key
            · rw [if_pos order, isReactivationActive_iff, min_eq_right order, max_eq_left order,
                and_left_comm]
            · rw [if_neg order, isReactivationActive_iff, min_eq_left (le_of_not_ge order),
                max_eq_right (le_of_not_ge order)]

/-- The window is active between the two times, whichever of the settings comes
first, and whatever was loaded before. -/
theorem reactivation_window (ints : IntStore) (before : ReactivationSettings) (reactivation : Int32)
    (start finish : Option (List UInt8)) (now : SystemTime) :
    (isReactivationActive (loadReactivation ints before reactivation start finish) now = true ↔
      reactivation ≠ 0 ∨ WithinWindow ints start finish now) ∧
    ∀ other, isReactivationActive (loadReactivation ints other reactivation finish start) now =
      isReactivationActive (loadReactivation ints before reactivation start finish) now := by
  refine ⟨load_active_iff ints before reactivation start finish now, fun other => ?_⟩
  rw [Bool.eq_iff_iff, load_active_iff, load_active_iff, withinWindow_comm]

/-! ### Times that are written out -/

def dateTimeText (month day year hour minute : Int32) : List UInt8 :=
  printInt month ++ 47 :: (printInt day ++ 47 :: (printInt year ++ 32 ::
    (printInt hour ++ 58 :: (printInt minute ++ []))))

/-- Any five integers that `int` holds are read back. -/
theorem parsed_dateTimeText (ints : IntStore) (month day year hour minute : Int32) :
    parsed ints (some (dateTimeText month day year hour minute)) =
      some ⟨toWord year, toWord month, toWord day, toWord hour, toWord minute⟩ := by
  have ends := fun (c : UInt8) rest (other : CText.isdigit c = false) =>
    CText.head_cons (fun next => CText.isdigit next = false) c rest other
  have last := sscanf_printInt ints minute [] [] fun next first =>
    absurd first (Option.not_mem_none next)
  have read : sscanf ints dateTimeFormat (dateTimeText month day year hour minute) =
      [month, day, year, hour, minute] := by
    rw [dateTimeFormat, dateTimeText, sscanf_printInt ints month _ _ (ends 47 _ rfl), sscanf_char,
      sscanf_printInt ints day _ _ (ends 47 _ rfl), sscanf_char,
      sscanf_printInt ints year _ _ (ends 32 _ rfl), sscanf_blank ints 32 _ _ rfl,
      sscanf_printInt ints hour _ _ (ends 58 _ rfl), sscanf_char,
      last, sscanf]
  rw [parsed, Option.bind_some, read]

end Config

end AuthServer
