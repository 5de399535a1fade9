/-
Which file a log record goes to.

`CLogdFilelog` starts a new file every half hour.  Opening a file succeeds and
both clock reads of `AddLog` give the same time; the text of a record is left
out.  Times are the fields of a `struct tm` that are read.
-/

import AuthServer.Lib.CFormat
import Mathlib.Data.List.Lex

set_option autoImplicit false

namespace AuthServer

open CFormat

inductive LogType where
  | normal
  | verbose
  | debug
  | warn
  | error
  deriving DecidableEq

/-- `year` counts from 1900 and `mon` from zero. -/
structure Tm where
  year : Nat
  mon : Nat
  mday : Nat
  hour : Nat
  min : Nat
  deriving DecidableEq

def Tm.key (tm : Tm) : List Nat := [tm.year, tm.mon, tm.mday, tm.hour, tm.min]

def Tm.halfHour (tm : Tm) : Nat := if tm.min < 30 then 0 else 1

/-- `logFile` is the file that is open, by its path. -/
structure CFileLog where
  logFile : Option (List UInt8)
  prevDay : Nat
  prevHour : Nat
  currFlag : Nat
  prevFlag : Nat
  msgFilter : UInt32
  fileExt : List UInt8
  logDirectory : List UInt8

namespace CFileLog

def logTypeToBitMask : LogType → UInt32
  | .normal => (1 : UInt32) <<< 0
  | .verbose => (1 : UInt32) <<< 1
  | .debug => (1 : UInt32) <<< 2
  | .warn => (1 : UInt32) <<< 3
  | .error => (1 : UInt32) <<< 4

def setMsgAllowed (log : CFileLog) (logType : LogType) (bAllow : Bool) : CFileLog :=
  if bAllow then { log with msgFilter := log.msgFilter &&& ~~~ logTypeToBitMask logType }
  else { log with msgFilter := log.msgFilter ||| logTypeToBitMask logType }

def getMsgAllowed (log : CFileLog) (logType : LogType) : Bool :=
  log.msgFilter &&& logTypeToBitMask logType = 0

/-- The constructor; two types are off at first. -/
def create (ext : List UInt8) : CFileLog :=
  setMsgAllowed (setMsgAllowed
    { logFile := none
      prevDay := 0
      prevHour := 0
      currFlag := 0
      prevFlag := 0
      msgFilter := 0
      fileExt := ext
      logDirectory := [] } .verbose false) .debug false

def startNewLog (log : CFileLog) (tm : Tm) : Bool :=
  tm.mday ≠ log.prevDay ∨ tm.hour ≠ log.prevHour ∨ log.currFlag ≠ log.prevFlag

end CFileLog

namespace CLogdFilelog

open CFileLog

/-- The path of the format in the source, for a directory, an extension and a flag. -/
def logPath (logDirectory fileExt : List UInt8) (tm : Tm) (flag : Nat) : List UInt8 :=
  logDirectory ++ (ascii "\\" ++ (decimal 4 (tm.year + 1900) ++ (ascii "-" ++
    (decimal 2 (tm.mon + 1) ++ (ascii "-" ++ (decimal 2 tm.mday ++ (ascii "-100" ++
      (decimal 2 tm.hour ++ (ascii "-201-authd-in" ++ (decimal 1 flag ++
        (ascii "." ++ fileExt)))))))))))

def constructLogPath (log : CFileLog) (tm : Tm) : List UInt8 :=
  logPath log.logDirectory log.fileExt tm log.currFlag

def setDirectoryEx (log : CFileLog) (logFolder : List UInt8) (tm : Tm) : CFileLog :=
  let placed := { log with logDirectory := logFolder }
  { placed with
    logFile := some (constructLogPath placed tm)
    prevDay := tm.mday
    prevHour := tm.hour }

def setDirectory (log : CFileLog) (logFolder : List UInt8) (tm : Tm) : CFileLog :=
  setDirectoryEx { log with prevFlag := tm.halfHour } logFolder tm

/-- The log afterwards, and the file the record is written to, if any. -/
def addLogEx (log : CFileLog) (type : LogType) (tm : Tm) : CFileLog × Option (List UInt8) :=
  if log.getMsgAllowed type then
    if log.startNewLog tm ∧ log.logFile ≠ none then
      let path := constructLogPath log tm
      ({ log with logFile := some path, prevDay := tm.mday, prevHour := tm.hour }, some path)
    else (log, log.logFile)
  else (log, none)

def addLog (log : CFileLog) (logtype : LogType) (tm : Tm) : CFileLog × Option (List UInt8) :=
  let added := addLogEx { log with currFlag := tm.halfHour } logtype tm
  ({ added.1 with prevFlag := added.1.currFlag }, added.2)

def addLogs (log : CFileLog) : List (LogType × Tm) → List (Tm × List UInt8)
  | [] => []
  | (logtype, tm) :: rest =>
      let added := addLog log logtype tm
      added.2.toList.map (fun file => (tm, file)) ++ addLogs added.1 rest

/-- Every record is in the file that is named for its own time. -/
def Filed (logDirectory fileExt : List UInt8) (records : List (Tm × List UInt8)) : Prop :=
  ∀ record ∈ records, record.2 = logPath logDirectory fileExt record.1 record.1.halfHour

def SamePath (first second : Tm) (flag other : Nat) : Prop :=
  first.year = second.year ∧ first.mon = second.mon ∧ first.mday = second.mday ∧
    first.hour = second.hour ∧ flag = other

/-- Nothing slips past the comparison of day, hour and half hour.  `last` is the
time of the last record that was written, `lastFlag` its half hour, and `seen`
the half hour of the last call, written or not. -/
def Unslipped (allowed : LogType → Bool) (last : Tm) (lastFlag seen : Nat) :
    List (LogType × Tm) → Prop
  | [] => True
  | (logtype, tm) :: rest =>
      if allowed logtype then
        (tm.mday = last.mday → tm.hour = last.hour → tm.halfHour = seen →
          tm.year = last.year ∧ tm.mon = last.mon ∧ tm.halfHour = lastFlag) ∧
        Unslipped allowed tm tm.halfHour tm.halfHour rest
      else Unslipped allowed last lastFlag tm.halfHour rest

theorem separated (separator rest : List UInt8) (c : UInt8) (first : separator.head? = some c)
    (other : CText.isdigit c = false) :
    ∀ next ∈ (separator ++ rest).head?, CText.isdigit next = false := by
  obtain ⟨more, rfl⟩ := List.head?_eq_some_iff.mp first
  exact CText.head_cons _ c (more ++ rest) other

theorem logPath_inj (logDirectory fileExt : List UInt8) (first second : Tm) (flag other : Nat) :
    logPath logDirectory fileExt first flag = logPath logDirectory fileExt second other ↔
      SamePath first second flag other := by
  constructor
  · intro same
    have afterFolder := List.append_cancel_left (List.append_cancel_left same)
    have dash := fun rest => separated (ascii "-") rest 45 rfl rfl
    have hour := fun rest => separated (ascii "-100") rest 45 rfl rfl
    have half := fun rest => separated (ascii "-201-authd-in") rest 45 rfl rfl
    have dot := fun rest => separated (ascii ".") rest 46 rfl rfl
    obtain ⟨sameYear, afterYear⟩ := decimal_inj 4 _ _ _ _ (dash _) (dash _) afterFolder
    obtain ⟨sameMon, afterMon⟩ := decimal_inj 2 _ _ _ _ (dash _) (dash _)
      (List.append_cancel_left afterYear)
    obtain ⟨sameDay, afterDay⟩ := decimal_inj 2 _ _ _ _ (hour _) (hour _)
      (List.append_cancel_left afterMon)
    obtain ⟨sameHour, afterHour⟩ := decimal_inj 2 _ _ _ _ (half _) (half _)
      (List.append_cancel_left afterDay)
    obtain ⟨sameFlag, _⟩ := decimal_inj 1 _ _ _ _ (dot _) (dot _)
      (List.append_cancel_left afterHour)
    exact ⟨Nat.add_right_cancel sameYear, Nat.add_right_cancel sameMon, sameDay, sameHour, sameFlag⟩
  · rintro ⟨year, mon, mday, hour, half⟩
    unfold logPath
    rw [year, mon, mday, hour, half]

section Records

variable (log : CFileLog) (logtype : LogType) (tm : Tm)

theorem addLogEx_filtered (filtered : log.getMsgAllowed logtype = false) :
    addLogEx log logtype tm = (log, none) := by
  rw [addLogEx, filtered]
  rfl

theorem addLogEx_stays (allowed : log.getMsgAllowed logtype = true)
    (still : log.startNewLog tm = false) : addLogEx log logtype tm = (log, log.logFile) := by
  rw [addLogEx, if_pos allowed, if_neg fun rotates => ?_]
  rw [still] at rotates
  exact Bool.false_ne_true rotates.1

theorem addLogEx_rotates (allowed : log.getMsgAllowed logtype = true)
    (changed : log.startNewLog tm = true) (isOpen : log.logFile ≠ none) :
    addLogEx log logtype tm =
      ({ log with
          logFile := some (constructLogPath log tm)
          prevDay := tm.mday
          prevHour := tm.hour }, some (constructLogPath log tm)) := by
  rw [addLogEx, if_pos allowed, if_pos ⟨changed, isOpen⟩]

/-- What the log remembers: the file that was opened last, and the half hour of
the last call. -/
structure Tracks (log : CFileLog) (last : Tm) (lastFlag seen : Nat) : Prop where
  logFile : log.logFile = some (logPath log.logDirectory log.fileExt last lastFlag)
  prevDay : log.prevDay = last.mday
  prevHour : log.prevHour = last.hour
  prevFlag : log.prevFlag = seen

structure SameNames (log next : CFileLog) : Prop where
  logDirectory : next.logDirectory = log.logDirectory
  fileExt : next.fileExt = log.fileExt
  msgFilter : next.msgFilter = log.msgFilter

theorem addLog_sameNames : SameNames log (addLog log logtype tm).1 := by
  unfold addLog addLogEx
  split
  · split
    · exact ⟨rfl, rfl, rfl⟩
    · exact ⟨rfl, rfl, rfl⟩
  · exact ⟨rfl, rfl, rfl⟩

variable {log} {last : Tm} {lastFlag seen : Nat}

/-- A record that is filtered out is not written, but its half hour is remembered. -/
theorem addLog_filtered (tracks : Tracks log last lastFlag seen)
    (filtered : log.getMsgAllowed logtype = false) :
    (addLog log logtype tm).2 = none ∧
      Tracks (addLog log logtype tm).1 last lastFlag tm.halfHour := by
  rw [addLog, addLogEx_filtered { log with currFlag := tm.halfHour } logtype tm filtered]
  exact ⟨rfl, tracks.logFile, tracks.prevDay, tracks.prevHour, rfl⟩

/-- What passes for no change. -/
def Unchanged (last : Tm) (seen : Nat) (tm : Tm) : Prop :=
  tm.mday = last.mday ∧ tm.hour = last.hour ∧ tm.halfHour = seen

theorem startNewLog_iff (tracks : Tracks log last lastFlag seen) :
    CFileLog.startNewLog { log with currFlag := tm.halfHour } tm = true ↔
      ¬ Unchanged last seen tm := by
  rw [CFileLog.startNewLog, decide_eq_true_iff, tracks.prevDay, tracks.prevHour, tracks.prevFlag,
    Unchanged, not_and_or, not_and_or]

theorem addLog_unchanged (tracks : Tracks log last lastFlag seen)
    (allowed : log.getMsgAllowed logtype = true) (unchanged : Unchanged last seen tm) :
    (addLog log logtype tm).2 = some (logPath log.logDirectory log.fileExt last lastFlag) ∧
      Tracks (addLog log logtype tm).1 last lastFlag tm.halfHour := by
  have still : CFileLog.startNewLog { log with currFlag := tm.halfHour } tm = false := by
    rw [← Bool.not_eq_true, startNewLog_iff tm tracks, not_not]
    exact unchanged
  rw [addLog, addLogEx_stays { log with currFlag := tm.halfHour } logtype tm allowed still]
  exact ⟨tracks.logFile, tracks.logFile, tracks.prevDay, tracks.prevHour, rfl⟩

theorem addLog_changed (tracks : Tracks log last lastFlag seen)
    (allowed : log.getMsgAllowed logtype = true) (changed : ¬ Unchanged last seen tm) :
    (addLog log logtype tm).2 = some (logPath log.logDirectory log.fileExt tm tm.halfHour) ∧
      Tracks (addLog log logtype tm).1 tm tm.halfHour tm.halfHour := by
  have isOpen : log.logFile ≠ none := by
    rw [tracks.logFile]
    exact Option.some_ne_none _
  rw [addLog, addLogEx_rotates { log with currFlag := tm.halfHour } logtype tm allowed
    ((startNewLog_iff tm tracks).mpr changed) isOpen]
  exact ⟨rfl, rfl, rfl, rfl, rfl⟩

end Records

/-- The condition does not tell times apart that give the same path. -/
theorem unslipped_congr (allowed : LogType → Bool) (first second : Tm) (flag other seen : Nat)
    (same : SamePath first second flag other) (calls : List (LogType × Tm)) :
    Unslipped allowed first flag seen calls ↔ Unslipped allowed second other seen calls := by
  obtain ⟨year, mon, mday, hour, rfl⟩ := same
  induction calls generalizing seen with
  | nil => exact Iff.rfl
  | cons call rest ih =>
      obtain ⟨logtype, tm⟩ := call
      rw [Unslipped, Unslipped, year, mon, mday, hour, ih]

theorem addLogs_filed_iff (calls : List (LogType × Tm)) : ∀ (log : CFileLog) (last : Tm)
    (lastFlag seen : Nat), Tracks log last lastFlag seen →
      (Filed log.logDirectory log.fileExt (addLogs log calls) ↔
        Unslipped log.getMsgAllowed last lastFlag seen calls) := by
  induction calls with
  | nil =>
      intro log last lastFlag seen _
      exact iff_of_true (List.forall_mem_nil _) trivial
  | cons call rest ih =>
      intro log last lastFlag seen tracks
      obtain ⟨logtype, tm⟩ := call
      obtain ⟨sameDirectory, sameExt, sameFilter⟩ := addLog_sameNames log logtype tm
      have filter : (addLog log logtype tm).1.getMsgAllowed = log.getMsgAllowed := by
        funext other
        rw [CFileLog.getMsgAllowed, sameFilter]
        rfl
      have later := ih (addLog log logtype tm).1
      rw [sameDirectory, sameExt, filter] at later
      unfold Filed at later ⊢
      rw [addLogs, Unslipped]
      cases allowed : log.getMsgAllowed logtype with
      | false =>
          obtain ⟨unwritten, next⟩ := addLog_filtered logtype tm tracks allowed
          rw [unwritten, if_neg Bool.false_ne_true, ← later last lastFlag tm.halfHour next]
          rfl
      | true =>
          rw [if_pos rfl]
          by_cases unchanged : Unchanged last seen tm
          · obtain ⟨written, next⟩ := addLog_unchanged logtype tm tracks allowed unchanged
            obtain ⟨mday, hour, half⟩ := unchanged
            rw [written, Option.toList_some, List.map_singleton, List.singleton_append,
              List.forall_mem_cons, later last lastFlag tm.halfHour next, logPath_inj]
            constructor
            · rintro ⟨same, unslipped⟩
              refine ⟨fun _ _ _ => ⟨same.1.symm, same.2.1.symm, same.2.2.2.2.symm⟩, ?_⟩
              exact (unslipped_congr _ _ _ _ _ _ same rest).mp unslipped
            · rintro ⟨kept, unslipped⟩
              obtain ⟨year, mon, flag⟩ := kept mday hour half
              have same : SamePath last tm lastFlag tm.halfHour :=
                ⟨year.symm, mon.symm, mday.symm, hour.symm, flag.symm⟩
              exact ⟨same, (unslipped_congr _ _ _ _ _ _ same rest).mpr unslipped⟩
          · obtain ⟨written, next⟩ := addLog_changed logtype tm tracks allowed unchanged
            rw [written, Option.toList_some, List.map_singleton, List.singleton_append,
              List.forall_mem_cons, later tm tm.halfHour tm.halfHour next,
              and_iff_right rfl, and_iff_right]
            intro mday hour half
            exact absurd ⟨mday, hour, half⟩ unchanged

def filtered (fileExt : List UInt8) (msgFilter : UInt32) : CFileLog :=
  { create fileExt with msgFilter := msgFilter }

/-- The file that is opened first is named for the first half of the hour. -/
theorem setDirectory_tracks (fileExt logFolder : List UInt8) (msgFilter : UInt32) (tm : Tm) :
    Tracks (setDirectory (filtered fileExt msgFilter) logFolder tm) tm 0 tm.halfHour :=
  ⟨rfl, rfl, rfl, rfl⟩

theorem filed_iff (fileExt logFolder : List UInt8) (msgFilter : UInt32) (opened : Tm)
    (calls : List (LogType × Tm)) :
    Filed logFolder fileExt
        (addLogs (setDirectory (filtered fileExt msgFilter) logFolder opened) calls) ↔
      Unslipped (filtered fileExt msgFilter).getMsgAllowed opened 0 opened.halfHour calls :=
  addLogs_filed_iff calls _ opened 0 opened.halfHour
    (setDirectory_tracks fileExt logFolder msgFilter opened)

/-- Records are in the right files exactly when none of them slips past the
comparison that starts a new one. -/
theorem records_filed_iff (fileExt logFolder : List UInt8) (msgFilter : UInt32) (opened : Tm)
    (calls : List (LogType × Tm)) :
    Filed logFolder fileExt
        (addLogs (setDirectory (filtered fileExt msgFilter) logFolder opened) calls) ↔
      Unslipped (filtered fileExt msgFilter).getMsgAllowed opened 0 opened.halfHour calls :=
  filed_iff fileExt logFolder msgFilter opened calls

/-- A log that is opened in the second half of an hour. -/
theorem late_start_misfiled :
    ¬ ∀ (fileExt logFolder : List UInt8) (msgFilter : UInt32) (opened : Tm)
      (calls : List (LogType × Tm)),
      (opened :: calls.map Prod.snd).Pairwise (fun earlier later => earlier.key ≤ later.key) →
        Filed logFolder fileExt
          (addLogs (setDirectory (filtered fileExt msgFilter) logFolder opened) calls) := by
  intro always
  have filed := (filed_iff (ascii "log") (ascii "logs") 0 ⟨117, 5, 5, 10, 45⟩
    [(.normal, ⟨117, 5, 5, 10, 46⟩)]).mp (always _ _ _ _ _ (by decide))
  obtain ⟨kept, _⟩ := filed
  exact absurd (kept rfl rfl rfl).2.2 (by decide)

/-- Opened in the first half of an hour, with a record in each half. -/
example : Filed (ascii "logs") (ascii "log")
    (addLogs (setDirectory (filtered (ascii "log") 0) (ascii "logs") ⟨117, 5, 5, 10, 5⟩)
      [(.warn, ⟨117, 5, 5, 10, 20⟩), (.error, ⟨117, 5, 5, 10, 31⟩)]) := by
  rw [filed_iff]
  simp [Unslipped, Tm.halfHour, filtered, CFileLog.getMsgAllowed]

end CLogdFilelog

end AuthServer
