/-
What the callers of the pool leave behind on a connection.

`Query` and `Exec` enter `m_QueryLock` and leave it only after an error; the
caller is to call `ResetQuery` in the other cases, which also frees the result.
A call below takes a connection from the pool, runs to its end and puts it back.
What the statements say is left out: rows are known by their numbers.
-/

import AuthServer.SqlPool

set_option autoImplicit false

namespace AuthServer

open LinkedQueue

namespace CMySQLConnection

def currentRow (connection : CMySQLConnection) : Option Nat := connection.sqlRow

def setMultiThread (connection : CMySQLConnection) (boMultiThread : Bool) : CMySQLConnection :=
  { connection with boMultiThread := boMultiThread }

def executeSqlGift (connection : CMySQLConnection) (select insert : QueryOutcome) :
    CMySQLConnection :=
  let queried := connection.query select
  if queried.1 then
    match queried.2.currentRow with
    | some _ =>
        let execed := queried.2.exec insert
        if execed.1 then execed.2.resetQuery else execed.2
    | none => queried.2.resetQuery
  else queried.2

def readBosses : Nat → CMySQLConnection → Option (List Nat × CMySQLConnection)
  | 0, _ => none
  | fuel + 1, connection =>
      match connection.currentRow with
      | none => some ([], connection)
      | some row => do
          let rest ← readBosses fuel connection.nextRow
          return (row :: rest.1, rest.2)

def getBossInfoFromDB (connection : CMySQLConnection) (outcome : QueryOutcome) :
    Option (List Nat × CMySQLConnection) :=
  let queried := connection.query outcome
  if queried.1 then readBosses (queried.2.sqlRows + 1) queried.2
  else some ([], queried.2)

/-- Every result set was freed once, and neither a result nor the lock is left. -/
structure Balanced (connection : CMySQLConnection) : Prop where
  freed : ∀ number, connection.mySQL.freed.count number =
    if number < connection.mySQL.obtained then 1 else 0
  pending : connection.mySQL.pending = none
  queryLock : connection.queryLock = 0

/-- Balanced, and without a pointer to an old result. -/
structure Settled (connection : CMySQLConnection) : Prop where
  balanced : connection.Balanced
  sqlResult : connection.sqlResult = none

/-! ### The lock and the statements -/

def depth (connection : CMySQLConnection) : Int := if connection.boMultiThread then 1 else 0

section Statements

variable (connection : CMySQLConnection)

theorem lock_eq :
    connection.lock = { connection with queryLock := connection.queryLock + connection.depth } := by
  unfold lock depth
  split
  · rfl
  · rw [Int.add_zero]

theorem unlock_eq :
    connection.unlock =
      { connection with queryLock := connection.queryLock - connection.depth } := by
  unfold unlock depth
  split
  · rfl
  · rw [Int.sub_zero]

theorem query_error :
    connection.query .error =
      (false, { connection with sqlResult := none, sqlRows := 0, sqlRow := none }) := by
  have refused : connection.lock.realQuery .error = (false, connection.lock) := by
    unfold realQuery
    split
    · contradiction
    · contradiction
    · rfl
  rw [query, refused, afterQueryed, if_neg Bool.false_ne_true, unlock_eq, lock_eq]
  simp only [depth, Int.add_sub_cancel]

theorem query_noResult (idle : connection.mySQL.pending = none) :
    connection.query .noResult =
      (true, { connection with
        queryLock := connection.queryLock + connection.depth
        sqlResult := none
        sqlRows := 0
        sqlRow := none }) := by
  rw [query, lock_eq]
  simp only [realQuery, idle, afterQueryed, if_true, storeResult]

theorem query_resultSet (rows : Nat) (idle : connection.mySQL.pending = none) :
    connection.query (.resultSet rows) =
      (true, { connection with
        mySQL := { connection.mySQL with
          pending := none
          obtained := connection.mySQL.obtained + 1 }
        queryLock := connection.queryLock + connection.depth
        sqlResult := some (MySqlRes.fetchRow ⟨connection.mySQL.obtained, rows, 0⟩).2
        sqlRows := rows
        sqlRow := (MySqlRes.fetchRow ⟨connection.mySQL.obtained, rows, 0⟩).1 }) := by
  rw [query, lock_eq]
  simp only [realQuery, idle, afterQueryed, if_true, storeResult]

/-- `Exec` frees nothing and forgets the result that was there. -/
theorem exec_forgets (outcome : QueryOutcome) :
    (connection.exec outcome).2.mySQL.freed = connection.mySQL.freed ∧
      (connection.exec outcome).2.mySQL.obtained = connection.mySQL.obtained ∧
        (connection.exec outcome).2.sqlResult = none := by
  have sent : (connection.lock.realQuery outcome).2.mySQL.freed = connection.mySQL.freed ∧
      (connection.lock.realQuery outcome).2.mySQL.obtained = connection.mySQL.obtained := by
    rw [lock_eq]
    unfold realQuery
    split
    · exact ⟨rfl, rfl⟩
    · exact ⟨rfl, rfl⟩
    · exact ⟨rfl, rfl⟩
  unfold exec afterExeced
  simp only
  split
  · exact ⟨sent.1, sent.2, rfl⟩
  · rw [unlock_eq]
    exact ⟨sent.1, sent.2, rfl⟩

theorem resetQuery_none (missing : connection.sqlResult = none) :
    connection.resetQuery =
      { connection with
        sqlResult := none
        sqlRows := 0
        sqlRow := none
        queryLock := connection.queryLock - connection.depth } := by
  rw [resetQuery, missing, unlock_eq]
  rfl

theorem resetQuery_some (result : MySqlRes) (known : connection.sqlResult = some result) :
    connection.resetQuery =
      { connection with
        mySQL := { connection.mySQL with freed := result.number :: connection.mySQL.freed }
        sqlResult := none
        sqlRows := 0
        sqlRow := none
        queryLock := connection.queryLock - connection.depth } := by
  rw [resetQuery, known, unlock_eq]
  rfl

end Statements

/-! ### The two callers -/

section Callers

variable (connection : CMySQLConnection) (settled : connection.Settled)

include settled

/-- A result set that was obtained and not freed is missed. -/
theorem Settled.unfreed (after : CMySQLConnection)
    (freed : after.mySQL.freed = connection.mySQL.freed)
    (obtained : after.mySQL.obtained = connection.mySQL.obtained + 1) : ¬ after.Balanced := by
  intro balanced
  have missed := balanced.freed connection.mySQL.obtained
  rw [freed, settled.balanced.freed, obtained, if_neg (Nat.lt_irrefl _),
    if_pos (Nat.lt_succ_self _)] at missed
  cases missed

theorem Settled.query_error : (connection.query .error).2.Settled := by
  rw [connection.query_error]
  exact ⟨⟨settled.balanced.freed, settled.balanced.pending, settled.balanced.queryLock⟩, rfl⟩

theorem Settled.gift_error (insert : QueryOutcome) :
    (connection.executeSqlGift .error insert).Settled := by
  have after := Settled.query_error connection settled
  rw [connection.query_error] at after
  rw [executeSqlGift, connection.query_error]
  exact after

theorem Settled.gift_noResult (insert : QueryOutcome) :
    (connection.executeSqlGift .noResult insert).Settled := by
  rw [executeSqlGift, connection.query_noResult settled.balanced.pending]
  simp only [if_true, currentRow]
  rw [resetQuery_none _ rfl]
  refine ⟨⟨settled.balanced.freed, settled.balanced.pending, ?_⟩, rfl⟩
  change connection.queryLock + connection.depth - connection.depth = 0
  rw [Int.add_sub_cancel]
  exact settled.balanced.queryLock

theorem Settled.gift_empty (insert : QueryOutcome) :
    (connection.executeSqlGift (.resultSet 0) insert).Settled := by
  rw [executeSqlGift, connection.query_resultSet 0 settled.balanced.pending]
  simp only [if_true, currentRow, MySqlRes.fetchRow, Nat.lt_irrefl, if_false]
  rw [resetQuery_some _ _ rfl]
  refine ⟨⟨fun number => ?_, rfl, ?_⟩, rfl⟩
  · simp only [List.count_cons, settled.balanced.freed, beq_iff_eq]
    by_cases last : connection.mySQL.obtained = number
    · rw [if_pos last, if_neg (by omega), if_pos (by omega)]
    · rw [if_neg last]
      by_cases before : number < connection.mySQL.obtained
      · rw [if_pos before, if_pos (by omega)]
      · rw [if_neg before, if_neg (by omega)]
  · change connection.queryLock + connection.depth - connection.depth = 0
    rw [Int.add_sub_cancel]
    exact settled.balanced.queryLock

/-- With a row `Exec` loses the result. -/
theorem Settled.gift_row (rows : Nat) (insert : QueryOutcome) :
    ¬ (connection.executeSqlGift (.resultSet (rows + 1)) insert).Balanced := by
  rw [executeSqlGift, connection.query_resultSet (rows + 1) settled.balanced.pending]
  simp only [if_true, currentRow, MySqlRes.fetchRow, Nat.succ_pos]
  have forgets := exec_forgets { connection with
    mySQL := { connection.mySQL with
      pending := none
      obtained := connection.mySQL.obtained + 1 }
    queryLock := connection.queryLock + connection.depth
    sqlResult := some ⟨connection.mySQL.obtained, rows + 1, 1⟩
    sqlRows := rows + 1
    sqlRow := some 0 } insert
  split
  · rw [resetQuery_none _ forgets.2.2]
    exact Settled.unfreed connection settled _ forgets.1 forgets.2.1
  · exact Settled.unfreed connection settled _ forgets.1 forgets.2.1

end Callers

theorem readBosses_from (left row number : Nat) (connection : CMySQLConnection)
    (known : connection.sqlResult = some ⟨number, row + 1 + left, row + 1⟩)
    (current : connection.sqlRow = some row) :
    ∃ final, readBosses (left + 2) connection = some (List.range' row (left + 1), final) ∧
      final.mySQL = connection.mySQL := by
  induction left generalizing row connection with
  | zero =>
      have next : connection.nextRow = { connection with sqlRow := none } := by
        rw [nextRow, known]
        simp only [MySqlRes.fetchRow, Nat.add_zero, Nat.lt_irrefl, if_false]
      refine ⟨connection.nextRow, ?_, by rw [next]⟩
      simp only [readBosses, currentRow, current, next]
      rfl
  | succ left ih =>
      have next : connection.nextRow = { connection with
          sqlResult := some ⟨number, row + 1 + (left + 1), row + 1 + 1⟩
          sqlRow := some (row + 1) } := by
        rw [nextRow, known]
        simp only [MySqlRes.fetchRow]
        rw [if_pos (by omega)]
      obtain ⟨final, reads, same⟩ := ih (row + 1) connection.nextRow
        (by rw [next, Nat.add_right_comm (row + 1) 1 left, Nat.add_assoc (row + 1) left 1])
        (by rw [next])
      refine ⟨final, ?_, same.trans (by rw [next])⟩
      rw [readBosses, currentRow, current]
      simp only
      rw [reads]
      rfl

section Bosses

variable (connection : CMySQLConnection) (idle : connection.mySQL.pending = none)

theorem boss_error :
    connection.getBossInfoFromDB .error =
      some ([], { connection with sqlResult := none, sqlRows := 0, sqlRow := none }) := by
  rw [getBossInfoFromDB, query_error]
  rfl

include idle

theorem boss_noResult :
    connection.getBossInfoFromDB .noResult =
      some ([], { connection with
        queryLock := connection.queryLock + connection.depth
        sqlResult := none
        sqlRows := 0
        sqlRow := none }) := by
  rw [getBossInfoFromDB, query_noResult connection idle]
  rfl

/-- Every row is read, and the result set is only looked at. -/
theorem boss_resultSet (rows : Nat) :
    ∃ final, connection.getBossInfoFromDB (.resultSet rows) = some (List.range rows, final) ∧
      final.mySQL.freed = connection.mySQL.freed ∧
        final.mySQL.obtained = connection.mySQL.obtained + 1 := by
  rw [getBossInfoFromDB, query_resultSet connection rows idle]
  simp only [if_true]
  cases rows with
  | zero => exact ⟨_, rfl, rfl, rfl⟩
  | succ left =>
      obtain ⟨final, reads, same⟩ := readBosses_from left 0 connection.mySQL.obtained
        { connection with
          mySQL := { connection.mySQL with
            pending := none
            obtained := connection.mySQL.obtained + 1 }
          queryLock := connection.queryLock + connection.depth
          sqlResult := some ⟨connection.mySQL.obtained, 0 + 1 + left, 0 + 1⟩
          sqlRows := left + 1
          sqlRow := some 0 } rfl rfl
      refine ⟨final, ?_, by rw [same], by rw [same]⟩
      simp only [MySqlRes.fetchRow, Nat.succ_pos, if_true]
      rw [List.range_eq_range', ← reads, Nat.zero_add, Nat.add_comm 1 left]

end Bosses

end CMySQLConnection

structure SqlUse where
  env : DBEnv
  boss : List Nat

inductive SqlCall where
  | executeSqlGift (select insert : QueryOutcome)
  | getBossInfoFromDB (outcome : QueryOutcome)

namespace CMySQLConnection

def perform (connection : CMySQLConnection) (boss : List Nat) :
    SqlCall → Option (List Nat × CMySQLConnection)
  | .executeSqlGift select insert => some (boss, connection.executeSqlGift select insert)
  | .getBossInfoFromDB outcome => connection.getBossInfoFromDB outcome

/-- The call does not reach a result that its caller loses, nor a lock that it keeps. -/
def Settles (connection : CMySQLConnection) : SqlCall → Prop
  | .executeSqlGift select _ => ∀ rows, select ≠ .resultSet (rows + 1)
  | .getBossInfoFromDB outcome =>
      outcome = .error ∨ outcome = .noResult ∧ connection.boMultiThread = false

section Perform

variable (connection : CMySQLConnection) (boss : List Nat) (call : SqlCall)

/-- Every call comes to its end, and what it leaves is decided by its condition. -/
theorem perform_spec (settled : connection.Settled) :
    ∃ performed, connection.perform boss call = some performed ∧
      (connection.Settles call → performed.2.Settled) ∧
        (performed.2.Balanced → connection.Settles call) := by
  have idle := settled.balanced.pending
  cases call with
  | executeSqlGift select insert =>
      refine ⟨_, rfl, ?_⟩
      cases select with
      | error =>
          exact ⟨fun _ => Settled.gift_error connection settled insert,
            fun _ rows impossible => by cases impossible⟩
      | noResult =>
          exact ⟨fun _ => Settled.gift_noResult connection settled insert,
            fun _ rows impossible => by cases impossible⟩
      | resultSet rows =>
          cases rows with
          | zero =>
              exact ⟨fun _ => Settled.gift_empty connection settled insert,
                fun _ rows impossible => by cases impossible⟩
          | succ rows =>
              exact ⟨fun settles => absurd rfl (settles rows),
                fun balanced => absurd balanced (Settled.gift_row connection settled rows insert)⟩
  | getBossInfoFromDB outcome =>
      cases outcome with
      | error =>
          refine ⟨_, connection.boss_error, fun _ => ?_, fun _ => Or.inl rfl⟩
          exact ⟨⟨settled.balanced.freed, idle, settled.balanced.queryLock⟩, rfl⟩
      | noResult =>
          refine ⟨_, connection.boss_noResult idle, ?_, fun balanced => Or.inr ⟨rfl, ?_⟩⟩
          · rintro (impossible | ⟨_, single⟩)
            · cases impossible
            · refine ⟨⟨settled.balanced.freed, idle, ?_⟩, rfl⟩
              change connection.queryLock + connection.depth = 0
              rw [settled.balanced.queryLock, depth, single]
              rfl
          · have released : connection.queryLock + connection.depth = 0 := balanced.queryLock
            rw [settled.balanced.queryLock, Int.zero_add, depth] at released
            by_contra multi
            rw [if_pos ((Bool.not_eq_false _).mp multi)] at released
            cases released
      | resultSet rows =>
          obtain ⟨final, reads, freed, obtained⟩ := connection.boss_resultSet idle rows
          refine ⟨_, reads, ?_, fun balanced => ?_⟩
          · rintro (impossible | ⟨impossible, _⟩)
            · cases impossible
            · cases impossible
          · exact absurd balanced (Settled.unfreed connection settled final freed obtained)

end Perform

theorem connect_settled (connection : CMySQLConnection) (outcome : SqlConnectOutcome)
    (settled : connection.Settled) : (connection.connect outcome).2.Settled := by
  have initialised : connection.initHandle.Settled :=
    ⟨⟨settled.balanced.freed, rfl, settled.balanced.queryLock⟩, settled.sqlResult⟩
  have connected : ∀ isOpen boConnected,
      Settled { connection.initHandle.setOpen isOpen with boConnected := boConnected } :=
    fun _ _ => ⟨⟨settled.balanced.freed, rfl, settled.balanced.queryLock⟩, settled.sqlResult⟩
  unfold connect
  split
  · exact settled
  · simp only
    split
    · split
      · split
        · split
          · exact connected true true
          · exact connected false false
        · exact connected true true
      · exact initialised
    · exact initialised

theorem create_settled : create.Settled :=
  ⟨⟨fun number => (if_neg (Nat.not_lt_zero number)).symm, rfl, rfl⟩, rfl⟩

end CMySQLConnection

namespace DBEnv

def setConnection (env : DBEnv) (slot : Nat) (connection : CMySQLConnection) : DBEnv :=
  env.setSlot slot { env.sqlPool slot with connect := some connection }

def setMultiThread (env : DBEnv) (boMultiThread : Nat → Bool) : DBEnv :=
  { env with
    sqlPool := fun slot =>
      { env.sqlPool slot with
        connect := (env.sqlPool slot).connect.map fun connection =>
          connection.setMultiThread (boMultiThread slot) } }

def Rested (env : DBEnv) : Prop :=
  ∀ slots, env.Free slots → ∀ slot ∈ slots, ∀ connection,
    (env.sqlPool slot).connect = some connection → connection.Balanced

theorem Free.unique {env : DBEnv} {first second : List Nat} (atFirst : env.Free first)
    (atSecond : env.Free second) : first = second :=
  Links.unique first second env.freeSqlPool atFirst.links atSecond.links

theorem Free.setConnection {env : DBEnv} {slots : List Nat} (free : env.Free slots)
    (slot : Nat) (connection : CMySQLConnection) :
    (env.setConnection slot connection).Free slots := by
  refine Holds.congr free fun kept _ => ?_
  by_cases same : kept = slot
  · subst same
    rw [nextOf, DBEnv.setConnection, setSlot_same]
    rfl
  · rw [nextOf, DBEnv.setConnection, setSlot_other _ _ _ _ same]
    rfl

end DBEnv

namespace SqlUse

open CMySQLConnection DBEnv

/-- One call, from the constructor of its `CDBConn` to the destructor. -/
def step (use : SqlUse) (call : SqlCall) : Option SqlUse := do
  let taken ← use.env.takeSlot
  let connection ← (taken.2.sqlPool taken.1).connect
  let performed ← connection.perform use.boss call
  let env ← (taken.2.setConnection taken.1 performed.2).returnSlot taken.1
  return ⟨env, performed.1⟩

def machine : EventRuns.Machine SqlUse SqlCall := ⟨step⟩

def start (connCount : Nat) (outcomes : Nat → SqlConnectOutcome) (boMultiThread : Nat → Bool) :
    SqlUse :=
  ⟨((DBEnv.create connCount).allocSQLPool outcomes).setMultiThread boMultiThread, []⟩

/-- The condition of a call, on the connection that it will get. -/
def Settles (use : SqlUse) (call : SqlCall) : Prop :=
  ∀ slot taken connection, use.env.takeSlot = some (slot, taken) →
    (taken.sqlPool slot).connect = some connection → connection.Settles call

def Invariant (use : SqlUse) : Prop :=
  ∃ slots, use.env.Free slots ∧ ∀ slot ∈ slots,
    ∃ connection, (use.env.sqlPool slot).connect = some connection ∧ connection.Settled

theorem Invariant.rested {use : SqlUse} (invariant : Invariant use) : use.env.Rested := by
  obtain ⟨slots, free, settled⟩ := invariant
  intro others also slot member connection holds
  rw [← free.unique also] at member
  obtain ⟨known, isKnown, balanced⟩ := settled slot member
  rw [isKnown, Option.some.injEq] at holds
  exact holds ▸ balanced.balanced

/-- What a call does to the pool: the first slot goes to the end, with what the call
left on its connection. -/
theorem Invariant.call {use : SqlUse} (invariant : Invariant use) (call : SqlCall)
    (slot : Nat) (taken : DBEnv) (took : use.env.takeSlot = some (slot, taken)) :
    ∃ (connection : CMySQLConnection) (performed : List Nat × CMySQLConnection) (next : SqlUse)
      (rest : List Nat),
      (taken.sqlPool slot).connect = some connection ∧ connection.Settled ∧
        connection.perform use.boss call = some performed ∧
          step use call = some next ∧ next.env.Free (rest ++ [slot]) ∧
            (next.env.sqlPool slot).connect = some performed.2 ∧
              ∀ other ∈ rest, ∃ known,
                (next.env.sqlPool other).connect = some known ∧ known.Settled := by
  obtain ⟨slots, free, settled⟩ := invariant
  obtain ⟨rest, isFront, remaining, held, others⟩ := free.take took
  subst isFront
  obtain ⟨connection, isConnection, balanced⟩ := settled slot List.mem_cons_self
  rw [← (others slot).1] at isConnection
  obtain ⟨performed, performs, _⟩ := connection.perform_spec use.boss call balanced
  have fresh : slot ∉ rest := (List.nodup_cons.mp free.distinct).1
  obtain ⟨env, returns, final, kept⟩ := (remaining.setConnection slot performed.2).put slot fresh
    ((congrArg SQLPool.reset (setSlot_same taken slot _)).trans held)
  refine ⟨connection, performed, ⟨env, performed.1⟩, rest, isConnection, balanced, performs, ?_,
    final, ?_, fun other member => ?_⟩
  · simp only [step, took, isConnection, performs, returns, Option.bind_eq_bind,
      Option.bind_some]
    rfl
  · exact (kept slot).1.trans (congrArg SQLPool.connect (setSlot_same taken slot _))
  · have differ : other ≠ slot := fun same => fresh (same ▸ member)
    obtain ⟨known, isKnown, fine⟩ := settled other (List.mem_cons_of_mem slot member)
    refine ⟨known, ?_, fine⟩
    rw [(kept other).1, setConnection, setSlot_other _ _ _ _ differ, (others other).1]
    exact isKnown

theorem Invariant.completes {use : SqlUse} (invariant : Invariant use) (call : SqlCall)
    (available : use.env.freeSqlPool ≠ none) : ∃ next, step use call = some next := by
  obtain ⟨slot, front⟩ := Option.ne_none_iff_exists'.mp available
  have took : ∃ taken, use.env.takeSlot = some (slot, taken) := by
    unfold takeSlot
    rw [front]
    exact ⟨_, rfl⟩
  obtain ⟨taken, took⟩ := took
  obtain ⟨_, _, next, _, _, _, _, stepped, _⟩ := invariant.call call slot taken took
  exact ⟨next, stepped⟩

theorem step_takes (use next : SqlUse) (call : SqlCall) (stepped : step use call = some next) :
    ∃ slot taken, use.env.takeSlot = some (slot, taken) := by
  rw [step, Option.bind_eq_bind, Option.bind_eq_some_iff] at stepped
  obtain ⟨⟨slot, taken⟩, took, _⟩ := stepped
  exact ⟨slot, taken, took⟩

/-- One step: it keeps the invariant when its condition holds, and leaves an
unbalanced connection in the pool when it does not. -/
theorem Invariant.step {use next : SqlUse} (invariant : Invariant use) (call : SqlCall)
    (stepped : step use call = some next) :
    (Settles use call → Invariant next) ∧ (next.env.Rested → Settles use call) := by
  obtain ⟨slot, taken, took⟩ := step_takes use next call stepped
  obtain ⟨connection, performed, reached, rest, isConnection, settled, performs, also, free,
    left, others⟩ := invariant.call call slot taken took
  rw [stepped, Option.some.injEq] at also
  subst also
  obtain ⟨known, isKnown, keeps, exactly⟩ := connection.perform_spec use.boss call settled
  rw [performs, Option.some.injEq] at isKnown
  subst isKnown
  constructor
  · intro settles
    refine ⟨rest ++ [slot], free, fun other member => ?_⟩
    rcases List.mem_append.mp member with before | last
    · exact others other before
    · rw [List.mem_singleton.mp last]
      exact ⟨performed.2, left, keeps (settles slot taken connection took isConnection)⟩
  · intro rested other final given took' holds
    rw [took, Option.some.injEq, Prod.mk.injEq] at took'
    obtain ⟨rfl, rfl⟩ := took'
    rw [isConnection, Option.some.injEq] at holds
    subst holds
    exact exactly (rested _ free slot (List.mem_append_right rest List.mem_cons_self) _ left)

theorem start_invariant (connCount : Nat) (outcomes : Nat → SqlConnectOutcome)
    (boMultiThread : Nat → Bool) : Invariant (start connCount outcomes boMultiThread) := by
  obtain ⟨free, connections⟩ := allocSQLPool_spec connCount outcomes
  refine ⟨(List.range connCount).reverse, free, fun slot member => ?_⟩
  have less := List.mem_range.mp (List.mem_reverse.mp member)
  have settled := create.connect_settled (outcomes slot) create_settled
  refine ⟨_, congrArg (Option.map _) (connections slot less), ?_⟩
  exact ⟨⟨settled.balanced.freed, settled.balanced.pending, settled.balanced.queryLock⟩,
    settled.sqlResult⟩

theorem Invariant.rested_iff {use : SqlUse} (invariant : Invariant use) (calls : List SqlCall) :
    machine.Throughout (fun use => use.env.Rested) use calls ↔
      machine.Guarded Settles use calls := by
  apply machine.throughout_iff_guarded Invariant
  · intro state call next before settles stepped
    exact (before.step call stepped).1 settles
  · exact fun _ before => before.rested
  · intro state call next before stepped rested
    exact (before.step call stepped).2 rested
  · exact invariant

/-- Exactly the calls that meet their conditions leave balanced connections. -/
theorem balanced_iff_settles (connCount : Nat) (outcomes : Nat → SqlConnectOutcome)
    (boMultiThread : Nat → Bool) (calls : List SqlCall) :
    machine.Throughout (fun use => use.env.Rested) (start connCount outcomes boMultiThread) calls ↔
      machine.Guarded Settles (start connCount outcomes boMultiThread) calls :=
  (start_invariant connCount outcomes boMultiThread).rested_iff calls

/-- A gift that is found loses its result set, and so does a report. -/
theorem result_lost :
    ¬ machine.Throughout (fun use => use.env.Rested)
        (start 1 (fun _ => ⟨true, true, true⟩) fun _ => false)
        [.executeSqlGift (.resultSet 1) .noResult] ∧
      ¬ machine.Throughout (fun use => use.env.Rested)
        (start 1 (fun _ => ⟨true, true, true⟩) fun _ => false)
        [.getBossInfoFromDB (.resultSet 1)] := by
  have invariant := start_invariant 1 (fun _ => ⟨true, true, true⟩) fun _ => false
  have available : (start 1 (fun _ => ⟨true, true, true⟩) fun _ => false).env.freeSqlPool ≠ none :=
    Option.some_ne_none 0
  constructor
  · rw [invariant.rested_iff]
    intro guarded
    obtain ⟨next, stepped⟩ := invariant.completes _ available
    exact (guarded next stepped).1 0 _ _ rfl rfl 0 rfl
  · rw [invariant.rested_iff]
    intro guarded
    obtain ⟨next, stepped⟩ := invariant.completes _ available
    rcases (guarded next stepped).1 0 _ _ rfl rfl with impossible | ⟨impossible, _⟩
    · cases impossible
    · cases impossible

end SqlUse

end AuthServer
