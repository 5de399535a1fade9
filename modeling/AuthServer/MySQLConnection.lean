/-
A connection to the database.

What the client library answers is given from outside: whether each call of
`Connect` succeeds, and what a statement ends with.  A statement that is sent
while a result set is still waiting on the handle fails.  Result sets are
numbered in the order in which `mysql_store_result` hands them out.
-/

import Mathlib.Data.Int.Basic
import Mathlib.Data.List.Basic

set_option autoImplicit false

namespace AuthServer

/-- The `MYSQL` handle: whether it is open, the number of rows of a result set
that waits on it, how many were handed out, and which of them were freed. -/
structure MySql where
  isOpen : Bool
  pending : Option Nat
  obtained : Nat
  freed : List Nat
  deriving DecidableEq

/-- A `MYSQL_RES`: its rows, and how many were fetched. -/
structure MySqlRes where
  number : Nat
  numRows : Nat
  fetched : Nat
  deriving DecidableEq

def MySqlRes.fetchRow (result : MySqlRes) : Option Nat × MySqlRes :=
  if result.fetched < result.numRows then
    (some result.fetched, { result with fetched := result.fetched + 1 })
  else (none, result)

/-- Which of the calls in `Connect` succeed. -/
structure SqlConnectOutcome where
  init : Bool
  realConnect : Bool
  setCharacterSet : Bool
  deriving DecidableEq

inductive QueryOutcome where
  | error
  | resultSet (rows : Nat)
  | noResult
  deriving DecidableEq

structure CMySQLConnection where
  mySQL : MySql
  sqlResult : Option MySqlRes
  sqlRows : Nat
  sqlRow : Option Nat
  encodingName : List UInt8
  queryLock : Int
  boConnected : Bool
  boMultiThread : Bool
  deriving DecidableEq

namespace CMySQLConnection

def create : CMySQLConnection where
  mySQL := ⟨false, none, 0, []⟩
  sqlResult := none
  sqlRows := 0
  sqlRow := none
  encodingName := [117, 116, 102, 56]
  queryLock := 0
  boConnected := false
  boMultiThread := false

def setOpen (connection : CMySQLConnection) (isOpen : Bool) : CMySQLConnection :=
  { connection with mySQL := { connection.mySQL with isOpen := isOpen } }

def initHandle (connection : CMySQLConnection) : CMySQLConnection :=
  { connection with mySQL := { connection.mySQL with isOpen := false, pending := none } }

def connect (connection : CMySQLConnection) (outcome : SqlConnectOutcome) :
    Bool × CMySQLConnection :=
  if connection.boConnected then (true, connection)
  else
    let initialised := connection.initHandle
    if outcome.init then
      if outcome.realConnect then
        let connected := { initialised.setOpen true with boConnected := true }
        if connection.encodingName ≠ [] then
          if outcome.setCharacterSet then (true, connected)
          else (true, { connected.setOpen false with boConnected := false })
        else (true, connected)
      else (false, initialised)
    else (false, initialised)

def lock (connection : CMySQLConnection) : CMySQLConnection :=
  if connection.boMultiThread then { connection with queryLock := connection.queryLock + 1 }
  else connection

def unlock (connection : CMySQLConnection) : CMySQLConnection :=
  if connection.boMultiThread then { connection with queryLock := connection.queryLock - 1 }
  else connection

def realQuery (connection : CMySQLConnection) (outcome : QueryOutcome) :
    Bool × CMySQLConnection :=
  match connection.mySQL.pending, outcome with
  | none, .resultSet rows =>
      (true, { connection with mySQL := { connection.mySQL with pending := some rows } })
  | none, .noResult => (true, connection)
  | _, _ => (false, connection)

def storeResult (connection : CMySQLConnection) : CMySQLConnection :=
  match connection.mySQL.pending with
  | none => { connection with sqlResult := none, sqlRows := 0, sqlRow := none }
  | some rows =>
      let result : MySqlRes := ⟨connection.mySQL.obtained, rows, 0⟩
      { connection with
        mySQL := { connection.mySQL with
          pending := none
          obtained := connection.mySQL.obtained + 1 }
        sqlResult := some result.fetchRow.2
        sqlRows := rows
        sqlRow := result.fetchRow.1 }

def afterQueryed (connection : CMySQLConnection) (succeeded : Bool) : CMySQLConnection :=
  if succeeded then connection.storeResult
  else { connection with sqlResult := none, sqlRows := 0, sqlRow := none }.unlock

def afterExeced (connection : CMySQLConnection) (succeeded : Bool) : CMySQLConnection :=
  if succeeded then { connection with sqlResult := none }
  else { connection with sqlResult := none, sqlRows := 0, sqlRow := none }.unlock

def query (connection : CMySQLConnection) (outcome : QueryOutcome) : Bool × CMySQLConnection :=
  let sent := connection.lock.realQuery outcome
  (sent.1, sent.2.afterQueryed sent.1)

def exec (connection : CMySQLConnection) (outcome : QueryOutcome) : Bool × CMySQLConnection :=
  let sent := connection.lock.realQuery outcome
  (sent.1, sent.2.afterExeced sent.1)

/-- A result set that is known is freed; there is never another one behind it. -/
def resetQuery (connection : CMySQLConnection) : CMySQLConnection :=
  let mySQL :=
    match connection.sqlResult with
    | some result => { connection.mySQL with freed := result.number :: connection.mySQL.freed }
    | none => connection.mySQL
  { connection with
    mySQL := mySQL
    sqlResult := none
    sqlRows := 0
    sqlRow := none }.unlock

def nextRow (connection : CMySQLConnection) : CMySQLConnection :=
  match connection.sqlResult with
  | some result =>
      { connection with sqlResult := some result.fetchRow.2, sqlRow := result.fetchRow.1 }
  | none => connection

def disconnect (connection : CMySQLConnection) : CMySQLConnection :=
  if connection.boConnected then
    { connection with boConnected := false }.resetQuery.setOpen false
  else connection

def setEncodingName (connection : CMySQLConnection) (encoding : List UInt8)
    (outcome : QueryOutcome) : CMySQLConnection :=
  if connection.encodingName = encoding then connection
  else
    let named := { connection with encodingName := encoding }
    if connection.boConnected then
      let execed := named.exec outcome
      if execed.1 then execed.2.resetQuery else execed.2
    else named

/-- What may be called on a connection. -/
inductive Call where
  | setEncodingName (encoding : List UInt8) (outcome : QueryOutcome)
  | connect (outcome : SqlConnectOutcome)
  | disconnect
  | query (outcome : QueryOutcome)
  | exec (outcome : QueryOutcome)
  | resetQuery
  | nextRow

def call (connection : CMySQLConnection) : Call → CMySQLConnection
  | .setEncodingName encoding outcome => connection.setEncodingName encoding outcome
  | .connect outcome => (connection.connect outcome).2
  | .disconnect => connection.disconnect
  | .query outcome => (connection.query outcome).2
  | .exec outcome => (connection.exec outcome).2
  | .resetQuery => connection.resetQuery
  | .nextRow => connection.nextRow

def Connected (connection : CMySQLConnection) : Prop :=
  connection.boConnected = true ∧ connection.mySQL.isOpen = true

instance connectedDecidable (connection : CMySQLConnection) : Decidable connection.Connected :=
  inferInstanceAs (Decidable (_ ∧ _))

def Refused (connection : CMySQLConnection) (outcome : SqlConnectOutcome) : Prop :=
  connection.boConnected = false ∧ outcome.init = true ∧ outcome.realConnect = true ∧
    connection.encodingName ≠ [] ∧ outcome.setCharacterSet = false

def Coherent (connection : CMySQLConnection) : Prop :=
  connection.boConnected = connection.mySQL.isOpen

theorem create_coherent : create.Coherent := rfl

section Statements

variable (connection : CMySQLConnection) (outcome : QueryOutcome)

theorem unlock_coherent (coherent : connection.Coherent) : connection.unlock.Coherent := by
  unfold unlock
  split
  · exact coherent
  · exact coherent

theorem sent_coherent (coherent : connection.Coherent) :
    (connection.lock.realQuery outcome).2.Coherent := by
  have locked : connection.lock.Coherent := by
    unfold lock
    split
    · exact coherent
    · exact coherent
  unfold realQuery
  split
  · exact locked
  · exact locked
  · exact locked

theorem query_coherent (coherent : connection.Coherent) :
    (connection.query outcome).2.Coherent := by
  have sent := connection.sent_coherent outcome coherent
  simp only [query, afterQueryed]
  split
  · unfold storeResult
    split
    · exact sent
    · exact sent
  · exact unlock_coherent _ sent

theorem exec_coherent (coherent : connection.Coherent) :
    (connection.exec outcome).2.Coherent := by
  have sent := connection.sent_coherent outcome coherent
  simp only [exec, afterExeced]
  split
  · exact sent
  · exact unlock_coherent _ sent

theorem resetQuery_coherent (coherent : connection.Coherent) :
    connection.resetQuery.Coherent := by
  apply unlock_coherent
  cases connection.sqlResult with
  | none => exact coherent
  | some result => exact coherent

theorem disconnect_coherent (coherent : connection.Coherent) :
    connection.disconnect.Coherent := by
  unfold disconnect
  split
  · unfold resetQuery unlock
    simp only
    split
    · rfl
    · rfl
  · exact coherent

theorem nextRow_coherent (coherent : connection.Coherent) : connection.nextRow.Coherent := by
  unfold nextRow
  split
  · exact coherent
  · exact coherent

theorem setEncodingName_coherent (encoding : List UInt8) (coherent : connection.Coherent) :
    (connection.setEncodingName encoding outcome).Coherent := by
  unfold setEncodingName
  split
  · exact coherent
  · simp only
    split
    · have execed := exec_coherent { connection with encodingName := encoding } outcome coherent
      split
      · exact resetQuery_coherent _ execed
      · exact execed
    · exact coherent

end Statements

section Connect

variable (connection : CMySQLConnection) (outcome : SqlConnectOutcome)

theorem connect_coherent (coherent : connection.Coherent) :
    (connection.connect outcome).2.Coherent := by
  unfold connect
  split
  · exact coherent
  · rename_i apart
    have closed := (Bool.not_eq_true _).mp apart
    simp only
    split
    · split
      · split
        · split
          · rfl
          · rfl
        · rfl
      · exact closed
    · exact closed

/-- The flag is right after any calls on a new connection. -/
theorem calls_coherent (calls : List Call) (connection : CMySQLConnection)
    (coherent : connection.Coherent) : (calls.foldl call connection).Coherent := by
  induction calls generalizing connection with
  | nil => exact coherent
  | cons first rest ih =>
      apply ih
      cases first with
      | setEncodingName encoding outcome =>
          exact connection.setEncodingName_coherent outcome encoding coherent
      | connect outcome => exact connection.connect_coherent outcome coherent
      | disconnect => exact connection.disconnect_coherent coherent
      | query outcome => exact connection.query_coherent outcome coherent
      | exec outcome => exact connection.exec_coherent outcome coherent
      | resetQuery => exact connection.resetQuery_coherent coherent
      | nextRow => exact connection.nextRow_coherent coherent

/-- On a connection that is not up, `Connect` answers by two of its calls, while
being connected takes all three. -/
theorem connect_apart (apart : connection.boConnected = false) :
    ((connection.connect outcome).1 = true ↔
      outcome.init = true ∧ outcome.realConnect = true) ∧
    ((connection.connect outcome).2.Connected ↔
      outcome.init = true ∧ outcome.realConnect = true ∧
        (connection.encodingName = [] ∨ outcome.setCharacterSet = true)) := by
  obtain ⟨init, realConnect, setCharacterSet⟩ := outcome
  cases init with
  | false => simp [connect, apart, Connected, initHandle]
  | true =>
      cases realConnect with
      | false => simp [connect, apart, Connected, initHandle]
      | true =>
          by_cases named : connection.encodingName = []
          · simp [connect, apart, named, Connected, setOpen]
          · cases setCharacterSet with
            | true => simp [connect, apart, named, Connected, setOpen]
            | false => simp [connect, apart, named, Connected, setOpen]

/-- `Connect` answers what became of the connection, unless the character set is
refused. -/
theorem connect_honest_iff (coherent : connection.Coherent) :
    ((connection.connect outcome).1 = true ↔ (connection.connect outcome).2.Connected) ↔
      ¬ connection.Refused outcome := by
  by_cases before : connection.boConnected = true
  · have unchanged : connection.connect outcome = (true, connection) := if_pos before
    rw [unchanged]
    refine iff_of_true (iff_of_true rfl ⟨before, coherent.symm.trans before⟩) fun refused => ?_
    have apart := refused.1
    rw [before] at apart
    cases apart
  · have apart := (Bool.not_eq_true _).mp before
    obtain ⟨answer, up⟩ := connection.connect_apart outcome apart
    rw [answer, up]
    constructor
    · rintro honest ⟨_, init, realConnect, named, refused⟩
      obtain ⟨_, _, accepted⟩ := honest.mp ⟨init, realConnect⟩
      rcases accepted with unnamed | accepted
      · exact named unnamed
      · rw [refused] at accepted
        cases accepted
    · intro accepted
      constructor
      · rintro ⟨init, realConnect⟩
        refine ⟨init, realConnect, ?_⟩
        by_contra neither
        rw [not_or, Bool.not_eq_true] at neither
        exact accepted ⟨apart, init, realConnect, neither.1, neither.2⟩
      · rintro ⟨init, realConnect, _⟩
        exact ⟨init, realConnect⟩

theorem create_connected_iff :
    (create.connect outcome).2.Connected ↔
      outcome.init = true ∧ outcome.realConnect = true ∧ outcome.setCharacterSet = true := by
  have named : create.encodingName ≠ [] := List.cons_ne_nil _ _
  rw [(create.connect_apart outcome rfl).2, or_iff_right named]

end Connect

end CMySQLConnection

end AuthServer
