/-
The lines of the log window.

`CLog` keeps its last lines in a ring, which `Redraw` runs through from the newest
line at the bottom of the window upwards.  A line that does not fit is cut off.  The
file that a line also goes to is left out.  `records` is a history variable: what
was recorded so far, newest first.
-/

import AuthServer.Lib.CFormat
import AuthServer.Lib.EventRuns
import AuthServer.Lib.LinearMemory
import AuthServer.Lib.RingBuffer
import AuthServer.LogFiles
import Mathlib.Algebra.Order.Ring.Nat

set_option autoImplicit false

namespace AuthServer

open CFormat LinearMemory RingBuffer

structure LogLine where
  type : LogType
  str : Nat → UInt8
  len : Nat

def logLineSize : Nat := 512

structure LogWindow where
  file : CFileLog
  enabled : Bool
  nLine : UInt32
  tail : UInt32
  lines : Nat → LogLine
  records : List (LogType × List UInt8)

inductive LogWindowEvent where
  | setMsgAllowed (logType : LogType) (bAllow : Bool)
  | enable (flag : Bool)
  | addLog (logtype : LogType) (tm : Tm) (sec : Nat) (format : List UInt8)
      (args : List CFormat.Arg)

namespace LogWindow

def create (nLine : UInt32) (ext : List UInt8) : LogWindow where
  file := .create ext
  enabled := false
  nLine := nLine
  tail := 0
  lines := fun _ => ⟨.normal, fun _ => 0, 0⟩
  records := []

def timeStamp (tm : Tm) (sec : Nat) : List UInt8 :=
  decimal 2 (tm.year + 1900) ++ ascii "." ++ decimal 2 (tm.mon + 1) ++ ascii "." ++
    decimal 2 tm.mday ++ ascii " " ++ decimal 2 tm.hour ++ ascii ":" ++ decimal 2 tm.min ++
    ascii "." ++ decimal 2 sec ++ ascii ": "

/-- The text of a line; where it does not fit the buffers, `vsprintf_s` ends the program. -/
def lineText (tm : Tm) (sec : Nat) (format : List UInt8) (args : List CFormat.Arg) :
    Option (List UInt8 × List UInt8) :=
  match CFormat.vsprintf format args with
  | none => none
  | some message =>
      if message.length < 1024 - 2 ∧ (timeStamp tm sec).length + message.length < 1024 then
        some (timeStamp tm sec, message)
      else none

/-- `lines[tail]` is written, with one character behind the text, and `tail` moves on. -/
def record (window : LogWindow) (logtype : LogType) (text : List UInt8) : LogWindow :=
  let len := if text.length > logLineSize - 2 then logLineSize - 2 else text.length
  let line := window.lines window.tail.toNat
  { window with
    lines := Function.update window.lines window.tail.toNat
      { line with
        type := logtype
        str := store line.str 0 ((text ++ [0]).take (len + 1))
        len := len }
    tail := (window.tail + 1) &&& (window.nLine - 1)
    records := (logtype, text.take (logLineSize - 2)) :: window.records }

def addLog (window : LogWindow) (logtype : LogType) (tm : Tm) (sec : Nat)
    (format : List UInt8) (args : List CFormat.Arg) : Option LogWindow :=
  if !window.enabled || !window.file.getMsgAllowed logtype then some window
  else
    (lineText tm sec format args).map fun (stamp, message) =>
      if message.length > 0 then window.record logtype (stamp ++ message) else window

def shown (line : LogLine) : LogType × List UInt8 := (line.type, slice line.str 0 line.len)

/-- The loop of `Redraw`: how high a line is drawn, and the line. -/
def redrawLoop (window : LogWindow) (cy : Int) :
    Nat → Int → UInt32 → Option (List (Int × LogType × List UInt8))
  | 0, _, _ => none
  | turns + 1, y, i =>
      let y := y - cy
      let i := (i - 1) &&& (window.nLine - 1)
      let drawn := (y, shown (window.lines i.toNat))
      if y ≥ 0 then (window.redrawLoop cy turns y i).map fun rest => drawn :: rest
      else some [drawn]

def redraw (window : LogWindow) (turns : Nat) (cy bottom : Int) :
    Option (List (Int × LogType × List UInt8)) :=
  if window.enabled then window.redrawLoop cy turns bottom window.tail else some []

def step (window : LogWindow) : LogWindowEvent → Option LogWindow
  | .setMsgAllowed logType bAllow =>
      some { window with file := window.file.setMsgAllowed logType bAllow }
  | .enable flag => some { window with enabled := flag }
  | .addLog logtype tm sec format args => window.addLog logtype tm sec format args

def machine : EventRuns.Machine LogWindow LogWindowEvent := ⟨step⟩

/-! ### The ring -/

def blank : LogType × List UInt8 := (.normal, [])

def ring (window : LogWindow) : CellRing (LogType × List UInt8) :=
  ⟨fun i => shown (window.lines i), window.tail.toNat⟩

structure Kept (size : Nat) (window : LogWindow) : Prop where
  sized : window.nLine.toNat = size
  shows_ : CellRing.Shows size window.ring window.records blank

theorem masked (k : Nat) (small : k < 32) (nLine i : UInt32) (sized : nLine.toNat = 2 ^ k) :
    (i &&& (nLine - 1)).toNat = i.toNat % 2 ^ k := by
  have positive : 1 ≤ 2 ^ k := Nat.one_le_two_pow
  have below : 2 ^ k < 2 ^ 32 := Nat.pow_lt_pow_right (by decide) small
  have mask : (nLine - 1).toNat = 2 ^ k - 1 := by
    rw [UInt32.toNat_sub_of_le nLine 1 (UInt32.le_iff_toNat_le.mpr (sized ▸ positive)), sized]
    rfl
  rw [UInt32.toNat_and, mask, Nat.and_two_pow_sub_one_eq_mod]

theorem shown_record (line : LogLine) (logtype : LogType) (text : List UInt8) (len : Nat)
    (isLen : len = if text.length > logLineSize - 2 then logLineSize - 2 else text.length) :
    shown ⟨logtype, store line.str 0 ((text ++ [0]).take (len + 1)), len⟩ =
      (logtype, text.take (logLineSize - 2)) := by
  have within : len ≤ text.length := by
    rw [isLen]
    split
    · omega
    · exact Nat.le_refl _
  have cut : text.take (logLineSize - 2) = text.take len := by
    rw [isLen]
    split
    · rfl
    · rename_i short
      rw [List.take_length, List.take_of_length_le (Nat.not_lt.mp short)]
  have written : ((text ++ [0]).take (len + 1)).length = len + 1 := by
    rw [List.length_take, List.length_append, List.length_singleton]
    omega
  have all := slice_store_same line.str 0 ((text ++ [0]).take (len + 1))
  rw [written] at all
  rw [shown]
  dsimp only
  rw [cut, ← slice_take _ 0 (len + 1) len (Nat.le_succ len), all, List.take_take,
    Nat.min_eq_left (Nat.le_succ len), List.take_append_of_le_length within]

theorem record_kept (k : Nat) (small : k < 32) (window : LogWindow) (logtype : LogType)
    (text : List UInt8) (kept : window.Kept (2 ^ k)) :
    (window.record logtype text).Kept (2 ^ k) := by
  refine ⟨kept.sized, ?_⟩
  have put := kept.shows_.put (logtype, text.take (logLineSize - 2))
  have cells : (fun i => shown ((window.record logtype text).lines i)) =
      Function.update (fun i => shown (window.lines i)) window.tail.toNat
        (logtype, text.take (logLineSize - 2)) := by
    rw [← shown_record (window.lines window.tail.toNat) logtype text _ rfl]
    exact Function.comp_update shown window.lines window.tail.toNat _
  have moved : (window.record logtype text).tail.toNat = (window.tail.toNat + 1) % 2 ^ k := by
    rw [record, masked k small window.nLine _ kept.sized, UInt32.toNat_add]
    exact Nat.mod_mod_of_dvd _ (Nat.pow_dvd_pow 2 (Nat.le_of_lt small))
  have sameRing : (window.record logtype text).ring =
      window.ring.put (2 ^ k) (logtype, text.take (logLineSize - 2)) := by
    rw [ring, cells, moved]
    rfl
  rw [sameRing]
  exact put

theorem step_kept (k : Nat) (small : k < 32) (window : LogWindow) (event : LogWindowEvent)
    (next : LogWindow) (kept : window.Kept (2 ^ k))
    (stepped : machine.step window event = some next) : next.Kept (2 ^ k) := by
  cases event with
  | setMsgAllowed logType bAllow =>
      cases stepped
      exact ⟨kept.sized, kept.shows_⟩
  | enable flag =>
      cases stepped
      exact ⟨kept.sized, kept.shows_⟩
  | addLog logtype tm sec format args =>
      simp only [machine, step, addLog] at stepped
      split at stepped
      · cases stepped
        exact kept
      · obtain ⟨⟨stamp, message⟩, _, same⟩ := Option.map_eq_some_iff.mp stepped
        dsimp only at same
        split at same
        · exact same ▸ record_kept k small window logtype _ kept
        · exact same ▸ kept

theorem create_kept (k : Nat) (small : k < 32) (ext : List UInt8) :
    (create (UInt32.ofNat (2 ^ k)) ext).Kept (2 ^ k) :=
  ⟨UInt32.toNat_ofNat_of_lt' (Nat.pow_lt_pow_right (by decide) small),
    CellRing.shows_blank blank Nat.one_le_two_pow⟩

/-! ### Redraw -/

theorem before_masked (k : Nat) (small : k < 32) (nLine i : UInt32)
    (sized : nLine.toNat = 2 ^ k) :
    ((i - 1) &&& (nLine - 1)).toNat = (i.toNat + 2 ^ k - 1) % 2 ^ k := by
  obtain ⟨rest, split_⟩ := Nat.exists_eq_add_of_le (Nat.le_of_lt small)
  have positive : 1 ≤ 2 ^ k := Nat.one_le_two_pow
  have whole : 2 ^ 32 = 2 ^ k + 2 ^ k * (2 ^ rest - 1) := by
    rw [split_, Nat.pow_add, Nat.mul_sub, Nat.mul_one]
    have less : 2 ^ k ≤ 2 ^ k * 2 ^ rest := Nat.le_mul_of_pos_right _ Nat.one_le_two_pow
    omega
  rw [masked k small nLine _ sized, UInt32.toNat_sub,
    Nat.mod_mod_of_dvd _ (Nat.pow_dvd_pow 2 (Nat.le_of_lt small))]
  have one : UInt32.toNat 1 = 1 := rfl
  have sum : 2 ^ 32 - UInt32.toNat 1 + i.toNat =
      i.toNat + 2 ^ k - 1 + 2 ^ k * (2 ^ rest - 1) := by
    rw [one]
    omega
  rw [sum, Nat.add_mul_mod_self_left]

def rows (cy bottom : Int) : Nat := (bottom / cy).toNat + 1

theorem rows_above (cy y : Int) (positive : 0 < cy) (inside : y - cy ≥ 0) :
    rows cy y = rows cy (y - cy) + 1 := by
  have less : y / cy = (y - cy) / cy + 1 := by
    have split_ := Int.add_mul_ediv_right (y - cy) 1 (Int.ne_of_gt positive)
    rw [Int.one_mul, Int.sub_add_cancel] at split_
    exact split_
  have some_ : 0 ≤ (y - cy) / cy := Int.ediv_nonneg inside (Int.le_of_lt positive)
  rw [rows, rows, less]
  omega

theorem rows_last (cy y : Int) (positive : 0 < cy) (outside : ¬ y - cy ≥ 0) : rows cy y = 1 := by
  have few : y / cy < 1 := Int.ediv_lt_of_lt_mul positive (by omega)
  rw [rows]
  omega

theorem redrawLoop_eq (k : Nat) (small : k < 32) (window : LogWindow)
    (kept : window.Kept (2 ^ k)) (cy : Int) (positive : 0 < cy) (turns : Nat) (y : Int)
    (i : UInt32) (count : Nat)
    (place : (i.toNat + 2 ^ k - 1) % 2 ^ k = CellRing.back (2 ^ k) window.tail.toNat count)
    (enough : rows cy y ≤ turns) :
    window.redrawLoop cy turns y i =
      some ((List.range (rows cy y)).map fun row : Nat =>
        (y - (row + 1) * cy, window.records.getD ((count + row) % 2 ^ k) blank)) := by
  induction turns generalizing y i count with
  | zero => exact absurd enough (Nat.not_le.mpr (Nat.succ_pos _))
  | succ turns ih =>
      have here := before_masked k small window.nLine i kept.sized
      rw [place] at here
      have line : shown (window.lines ((i - 1) &&& (window.nLine - 1)).toNat) =
          window.records.getD (count % 2 ^ k) blank := by
        rw [here]
        exact kept.shows_.around count
      have first : y - ((0 : Nat) + 1 : Int) * cy = y - cy := by
        rw [Int.natCast_zero, Int.zero_add, Int.one_mul]
      rw [redrawLoop, line]
      split
      · rename_i inside
        have more := rows_above cy y positive inside
        have next : (((i - 1) &&& (window.nLine - 1)).toNat + 2 ^ k - 1) % 2 ^ k =
            CellRing.back (2 ^ k) window.tail.toNat (count + 1) := by
          rw [here]
          exact (CellRing.back_succ window.tail.toNat count kept.shows_.inside).symm
        rw [ih (y - cy) _ (count + 1) next (by omega), more, List.range_succ_eq_map,
          List.map_cons, List.map_map, Option.map_some, first, Nat.add_zero]
        refine congrArg some (congrArg (List.cons _) (List.map_congr_left fun row _ => ?_))
        have height : y - cy - ((row : Int) + 1) * cy = y - ((row + 1 : Nat) + 1 : Int) * cy := by
          rw [Int.natCast_succ, Int.add_mul ((row : Int) + 1) 1 cy, Int.one_mul]
          omega
        rw [Function.comp_apply, Nat.succ_eq_add_one, ← height, Nat.add_right_comm, Nat.add_assoc]
      · rename_i outside
        rw [rows_last cy y positive outside]
        exact congrArg some (congrArg (fun height => [(height, _)]) first.symm)

/-- From the bottom of the window upwards stand the last lines, newest first, each as far
as it fits, then empty ones; where the window is higher than the ring, they come again. -/
def ShowsNewest (size : Nat) (window : LogWindow) : Prop :=
  ∀ cy bottom turns, 0 < cy → rows cy bottom ≤ turns → window.enabled = true →
    window.redraw turns cy bottom =
      some ((List.range (rows cy bottom)).map fun row : Nat =>
        (bottom - (row + 1) * cy, window.records.getD (row % size) blank))

theorem Kept.showsNewest (k : Nat) (small : k < 32) (window : LogWindow)
    (kept : window.Kept (2 ^ k)) : window.ShowsNewest (2 ^ k) := by
  intro cy bottom turns positive enough enabled
  have start : (window.tail.toNat + 2 ^ k - 1) % 2 ^ k =
      CellRing.back (2 ^ k) window.tail.toNat 0 := by
    rw [CellRing.back, Nat.zero_mod, Nat.sub_zero]
  rw [redraw, if_pos enabled,
    redrawLoop_eq k small window kept cy positive turns bottom window.tail 0 start enough]
  exact congrArg some (List.map_congr_left fun row _ => by rw [Nat.zero_add])

/-- `log_1` has 128 lines. -/
theorem log_1_shows (events : List LogWindowEvent) :
    machine.Throughout (ShowsNewest 128) (create 128 (ascii "winlog")) events :=
  machine.throughout_of_guarded (Kept (2 ^ 7)) (ShowsNewest 128) (fun _ _ => True)
    (fun window event next kept _ => step_kept 7 (by decide) window event next kept)
    (fun window kept => kept.showsNewest 7 (by decide) window) events _
    (create_kept 7 (by decide) (ascii "winlog"))
    (machine.guarded_of_step _ (fun _ _ _ _ => trivial) events _)

end LogWindow

end AuthServer
