/-
The connection string in the registry.

`LoginDlgProc` puts the string together from what is typed in, and `SaveConnStrToReg`
writes it to the registry, enciphered; `LoadConnStrFromReg` reads it back.  Where a
string would not fit its array, or would not end in it, there is no result.
`saved` is a history variable: the text of the last string that was written.
-/

import AuthServer.ConfigFile
import AuthServer.DesBits
import AuthServer.Lib.CFormat
import AuthServer.Lib.EventRuns

set_option autoImplicit false

namespace AuthServer

open CFormat LinearMemory Des

def maxConnStr : Nat := 256

def stringIn (size : Nat) (cells : Nat → UInt8) : Option (List UInt8) :=
  if 0 ∈ slice cells 0 size then some (cString (slice cells 0 size)) else none

def copyString (size : Nat) (dest : Nat → UInt8) (text : List UInt8) : Option (Nat → UInt8) :=
  if text.length < size then some (store dest 0 (text ++ [0])) else none

def appendString (size : Nat) (dest : Nat → UInt8) (text : List UInt8) : Option (Nat → UInt8) :=
  match stringIn size dest with
  | some old =>
      if old.length + text.length < size then some (store dest old.length (text ++ [0])) else none
  | none => none

/-- `DBEnv`, as far as the string goes, and its entry in the registry: whether it is
binary, and its bytes. -/
structure DBEnvString where
  connStr : Nat → UInt8
  registry : Option (Bool × List UInt8)
  saved : Option (List UInt8)

/-- The local arrays hold anything when a function is entered, and so does `m_connStr` when
the program is started. -/
inductive ConnStrEvent where
  | ok (file user pass : List UInt8) (created : Bool) (buffer : Nat → UInt8)
  | load (buffer : Nat → UInt8)
  | restart (connStr : Nat → UInt8)

namespace DBEnvString

def fieldText (text : List UInt8) : List UInt8 := (cString text).take 63

def connText (file user pass : List UInt8) : List UInt8 :=
  ascii "DATABASE=" ++ fieldText file ++ ascii ";USER=" ++ fieldText user ++ ascii ";PWD=" ++
    fieldText pass

def typed (connStr : Nat → UInt8) (file user pass : List UInt8) : Option (Nat → UInt8) := do
  let connStr ← copyString maxConnStr connStr (ascii "DATABASE=")
  let connStr ← appendString maxConnStr connStr (fieldText file)
  let connStr ← appendString maxConnStr connStr (ascii ";USER=")
  let connStr ← appendString maxConnStr connStr (fieldText user)
  let connStr ← appendString maxConnStr connStr (ascii ";PWD=")
  appendString maxConnStr connStr (fieldText pass)

def saveConnStrToReg (arrays : DesArrays) (connStr buffer : Nat → UInt8) :
    Option (List UInt8) := do
  let text ← stringIn maxConnStr connStr
  let buffer ← copyString maxConnStr buffer text
  some (slice (desWriteBlock arrays buffer 0 maxConnStr) 0 maxConnStr)

/-- `LoadConnStrFromReg`: whether there was a string, and `m_connStr` after it.  A value that
is longer than the buffer is not read. -/
def loadConnStrFromReg (arrays : DesArrays) (env : DBEnvString) (buffer : Nat → UInt8) :
    Option (Bool × (Nat → UInt8)) :=
  match env.registry with
  | some (true, value) =>
      if value.length ≤ maxConnStr then do
        let text ← stringIn maxConnStr (desReadBlock arrays (store buffer 0 value) 0 maxConnStr)
        let connStr ← copyString maxConnStr env.connStr text
        some (true, connStr)
      else some (false, env.connStr)
  | _ => some (false, env.connStr)

def step (arrays : DesArrays) (env : DBEnvString) : ConnStrEvent → Option DBEnvString
  | .ok file user pass created buffer => do
      let connStr ← typed env.connStr file user pass
      let value ← saveConnStrToReg arrays connStr buffer
      if created then
        some ⟨connStr, some (true, value), some (connText file user pass)⟩
      else some { env with connStr := connStr }
  | .load buffer => do
      let loaded ← loadConnStrFromReg arrays env buffer
      some { env with connStr := loaded.2 }
  | .restart connStr => some { env with connStr := connStr }

def machine (arrays : DesArrays) : EventRuns.Machine DBEnvString ConnStrEvent := ⟨step arrays⟩

def start (connStr : Nat → UInt8) : DBEnvString := ⟨connStr, none, none⟩

/-! ### Strings in arrays -/

structure Stored (size : Nat) (cells : Nat → UInt8) (text : List UInt8) : Prop where
  noZero : 0 ∉ text
  fits : text.length < size
  stands : slice cells 0 (text.length + 1) = text ++ [0]

theorem cString_stops (text rest : List UInt8) (noZero : 0 ∉ text) :
    cString (text ++ [0] ++ rest) = text := by
  have going : ∀ c ∈ text, decide (c ≠ 0) = true :=
    fun c member => decide_eq_true fun zero => noZero (zero ▸ member)
  rw [cString, List.append_assoc, List.takeWhile_append_of_pos going, List.singleton_append,
    List.takeWhile_cons_of_neg (by decide), List.append_nil]

theorem stringIn_stored (size : Nat) (cells : Nat → UInt8) (text : List UInt8)
    (stored : Stored size cells text) : stringIn size cells = some text := by
  obtain ⟨rest, length⟩ := Nat.exists_eq_add_of_le (Nat.succ_le_of_lt stored.fits)
  have whole : slice cells 0 size = text ++ [0] ++ slice cells (text.length + 1) rest := by
    rw [length, slice_append, ← stored.stands, Nat.zero_add]
  have member : 0 ∈ slice cells 0 size := by
    rw [whole]
    exact List.mem_append_left _ (List.mem_append_right _ List.mem_cons_self)
  rw [stringIn, if_pos member, whole, cString_stops text _ stored.noZero]

theorem copyString_stored (size : Nat) (dest : Nat → UInt8) (text : List UInt8)
    (noZero : 0 ∉ text) (fits : text.length < size) :
    ∃ cells, copyString size dest text = some cells ∧ Stored size cells text := by
  refine ⟨_, if_pos fits, noZero, fits, ?_⟩
  have all := slice_store_same dest 0 (text ++ [0])
  rw [List.length_append, List.length_singleton] at all
  exact all

theorem appendString_stored (size : Nat) (dest : Nat → UInt8) (old text : List UInt8)
    (stored : Stored size dest old) (noZero : 0 ∉ text)
    (fits : (old ++ text).length < size) :
    ∃ cells, appendString size dest text = some cells ∧ Stored size cells (old ++ text) := by
  have room : old.length + text.length < size := by
    rw [← List.length_append]
    exact fits
  refine ⟨store dest old.length (text ++ [0]), ?_, ?_, fits, ?_⟩
  · rw [appendString, stringIn_stored size dest old stored]
    exact if_pos room
  · exact fun member => (List.mem_append.mp member).elim stored.noZero noZero
  · have front : slice dest 0 old.length = old := by
      have cut := slice_take dest 0 (old.length + 1) old.length (Nat.le_succ _)
      rw [stored.stands, List.take_left] at cut
      exact cut.symm
    have all := slice_store_extend dest old.length (text ++ [0])
    rw [front, List.length_append, List.length_singleton] at all
    rw [List.length_append, Nat.add_assoc, all, List.append_assoc]

/-! ### What is typed in -/

theorem fieldText_noZero (text : List UInt8) : 0 ∉ fieldText text := by
  intro member
  have all := List.all_eq_true.mp List.all_takeWhile 0 (List.mem_of_mem_take member)
  exact absurd rfl (of_decide_eq_true all)

theorem fieldText_length (text : List UInt8) : (fieldText text).length ≤ 63 :=
  List.length_take_le 63 _

/-- The string fits, whatever is typed in. -/
theorem typed_stored (connStr : Nat → UInt8) (file user pass : List UInt8) :
    ∃ cells, typed connStr file user pass = some cells ∧
      Stored maxConnStr cells (connText file user pass) := by
  have fileShort := fieldText_length file
  have userShort := fieldText_length user
  have passShort := fieldText_length pass
  have database : (ascii "DATABASE=").length = 9 := by decide
  have userIs : (ascii ";USER=").length = 6 := by decide
  have pwd : (ascii ";PWD=").length = 5 := by decide
  obtain ⟨first, copied, stored⟩ := copyString_stored maxConnStr connStr (ascii "DATABASE=")
    (by decide) (by decide)
  obtain ⟨second, added2, stored2⟩ := appendString_stored maxConnStr first _ (fieldText file)
    stored (fieldText_noZero file) (by simp only [List.length_append, maxConnStr]; omega)
  obtain ⟨third, added3, stored3⟩ := appendString_stored maxConnStr second _ (ascii ";USER=")
    stored2 (by decide) (by simp only [List.length_append, maxConnStr]; omega)
  obtain ⟨fourth, added4, stored4⟩ := appendString_stored maxConnStr third _ (fieldText user)
    stored3 (fieldText_noZero user) (by simp only [List.length_append, maxConnStr]; omega)
  obtain ⟨fifth, added5, stored5⟩ := appendString_stored maxConnStr fourth _ (ascii ";PWD=")
    stored4 (by decide) (by simp only [List.length_append, maxConnStr]; omega)
  obtain ⟨last, added6, stored6⟩ := appendString_stored maxConnStr fifth _ (fieldText pass)
    stored5 (fieldText_noZero pass) (by simp only [List.length_append, maxConnStr]; omega)
  refine ⟨last, ?_, stored6⟩
  simp only [typed, copied, added2, added3, added4, added5, added6, Option.bind_eq_bind,
    Option.bind_some]

/-! ### The registry -/

/-- The value gives the text back, whatever the buffer held that it is read into. -/
structure Written (arrays : DesArrays) (value text : List UInt8) : Prop where
  length : value.length = maxConnStr
  gives : ∀ buffer,
    Stored maxConnStr (desReadBlock arrays (store buffer 0 value) 0 maxConnStr) text

theorem save_written (password text : List UInt8) (connStr buffer : Nat → UInt8)
    (stored : Stored maxConnStr connStr text) :
    ∃ value, saveConnStrToReg (desKeyInit password) connStr buffer = some value ∧
      Written (desKeyInit password) value text := by
  let arrays := desKeyInit password
  obtain ⟨plain, copied, inBuffer⟩ := copyString_stored maxConnStr buffer text stored.noZero
    stored.fits
  let written := desWriteBlock arrays plain 0 maxConnStr
  have back := (read_write password plain 0 maxConnStr).1
  refine ⟨slice written 0 maxConnStr, ?_, slice_length _ _ _, fun other => ?_⟩
  · simp only [saveConnStrToReg, stringIn_stored _ _ _ stored, copied, Option.bind_eq_bind,
      Option.bind_some]
    rfl
  · let read := desReadBlock arrays (store other 0 (slice written 0 maxConnStr)) 0 maxConnStr
    have all : 8 * (((maxConnStr &&& 0xfffffff8) + 7) / 8) = maxConnStr := by decide
    have same : slice read 0 (text.length + 1) = slice plain 0 (text.length + 1) := by
      refine slice_congr _ _ _ _ fun p _ below => ?_
      have inside : p < 0 + 8 * (((maxConnStr &&& 0xfffffff8) + 7) / 8) := by
        have fits := stored.fits
        omega
      rw [← congrFun back p]
      refine desMem_congr arrays _ _ 0 _ false (fun p _ within => ?_) p (Nat.zero_le p) inside
      rw [Nat.zero_add, all] at within
      have index : p < (slice written 0 maxConnStr).length := by
        rw [slice_length]
        exact within
      have there := store_inside other 0 p (slice written 0 maxConnStr) index
      rw [slice_getElem, Nat.zero_add] at there
      exact there
    exact ⟨stored.noZero, stored.fits, same.trans inBuffer.stands⟩

structure Entry (arrays : DesArrays) (env : DBEnvString) : Prop where
  none_ : env.saved = none → env.registry = none
  some_ : ∀ text, env.saved = some text →
    ∃ value, env.registry = some (true, value) ∧ Written arrays value text

theorem load_entry (arrays : DesArrays) (env : DBEnvString) (entry : Entry arrays env)
    (buffer : Nat → UInt8) :
    ∃ connStr, loadConnStrFromReg arrays env buffer = some (env.saved.isSome, connStr) ∧
      ∀ text, env.saved = some text → stringIn maxConnStr connStr = some text := by
  cases found : env.saved with
  | none =>
      refine ⟨env.connStr, ?_, nofun⟩
      rw [loadConnStrFromReg, entry.none_ found]
      rfl
  | some text =>
      obtain ⟨value, there, written⟩ := entry.some_ text found
      have read := written.gives buffer
      obtain ⟨connStr, copied, stored⟩ := copyString_stored maxConnStr env.connStr text
        read.noZero read.fits
      refine ⟨connStr, ?_, fun other same => ?_⟩
      · rw [loadConnStrFromReg, there]
        simp only [written.length, Nat.le_refl, if_true, stringIn_stored _ _ _ read, copied,
          Option.bind_eq_bind, Option.bind_some]
        rfl
      · exact Option.some.inj same ▸ stringIn_stored _ _ _ stored

theorem step_entry (password : List UInt8) (env : DBEnvString) (event : ConnStrEvent)
    (entry : Entry (desKeyInit password) env) :
    ∃ next, (machine (desKeyInit password)).step env event = some next ∧
      Entry (desKeyInit password) next := by
  cases event with
  | ok file user pass created buffer =>
      obtain ⟨connStr, typed_, stored⟩ := typed_stored env.connStr file user pass
      obtain ⟨value, saved, written⟩ := save_written password _ connStr buffer stored
      cases created with
      | true =>
          refine ⟨⟨connStr, some (true, value), some (connText file user pass)⟩, ?_, nofun,
            fun text same => ⟨value, rfl, Option.some.inj same ▸ written⟩⟩
          simp only [machine, step, typed_, saved, Option.bind_eq_bind, Option.bind_some]
          rfl
      | false =>
          refine ⟨{ env with connStr := connStr }, ?_, entry.none_, entry.some_⟩
          simp only [machine, step, typed_, saved, Option.bind_eq_bind, Option.bind_some]
          rfl
  | load buffer =>
      obtain ⟨connStr, loaded, _⟩ := load_entry _ env entry buffer
      refine ⟨{ env with connStr := connStr }, ?_, entry.none_, entry.some_⟩
      simp only [machine, step, loaded, Option.bind_eq_bind, Option.bind_some]
  | restart connStr => exact ⟨{ env with connStr := connStr }, rfl, entry.none_, entry.some_⟩

/-- Whatever is typed in, and however often the program is started anew: no string ever
runs past its array, and loading gives the string that was saved last, if there is one. -/
theorem load_saved (password : List UInt8) (connStr : Nat → UInt8) (events : List ConnStrEvent) :
    ∃ env, (machine (desKeyInit password)).run (start connStr) events = some env ∧
      ∀ buffer, ∃ connStr,
        loadConnStrFromReg (desKeyInit password) env buffer = some (env.saved.isSome, connStr) ∧
          ∀ text, env.saved = some text → stringIn maxConnStr connStr = some text := by
  have runs : ∀ events env, Entry (desKeyInit password) env →
      ∃ final, (machine (desKeyInit password)).run env events = some final ∧
        Entry (desKeyInit password) final := by
    intro events
    induction events with
    | nil => exact fun env entry => ⟨env, rfl, entry⟩
    | cons event rest ih =>
        intro env entry
        obtain ⟨next, stepped, kept⟩ := step_entry password env event entry
        obtain ⟨final, ran, last⟩ := ih next kept
        exact ⟨final, by rw [EventRuns.Machine.run, stepped]; exact ran, last⟩
  obtain ⟨env, ran, entry⟩ := runs events (start connStr)
    ⟨fun _ => rfl, fun text saved => absurd saved.symm (Option.some_ne_none text)⟩
  exact ⟨env, ran, load_entry _ env entry⟩

end DBEnvString

end AuthServer
