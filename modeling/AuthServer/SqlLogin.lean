/-
Which connections the pool hands out after `DBEnv::Init`.

`Init` allocates the pool when `Login` has connected once; otherwise it deletes
the array, and no slot is free.
-/

import AuthServer.SqlPool

set_option autoImplicit false

namespace AuthServer

open CMySQLConnection

namespace DBEnv

/-- `Login`, on a connection that is given up at its end. -/
def login (outcome : SqlConnectOutcome) : Bool := (CMySQLConnection.create.connect outcome).1

def init (connCount : Nat) (loginOutcome : SqlConnectOutcome) (outcomes : Nat → SqlConnectOutcome) :
    DBEnv :=
  let env := create connCount
  if login loginOutcome then env.allocSQLPool outcomes else env

/-- Every slot that a `CDBConn` takes, after any use of the pool, has a
connection that is up. -/
def HandsOutConnected (env : DBEnv) : Prop :=
  ∀ (events : List PoolEvent) (use : PoolUse) (slot : Nat) (taken : DBEnv),
    PoolUse.machine.run ⟨env, [], [], []⟩ events = some use →
      use.env.takeSlot = some (slot, taken) →
        ∃ connection, (taken.sqlPool slot).connect = some connection ∧ connection.Connected

def Succeeds (outcome : SqlConnectOutcome) : Prop :=
  outcome.init = true ∧ outcome.realConnect = true ∧ outcome.setCharacterSet = true

theorem login_iff (outcome : SqlConnectOutcome) :
    login outcome = true ↔ outcome.init = true ∧ outcome.realConnect = true :=
  (CMySQLConnection.create.connect_apart outcome rfl).1

theorem run_empty (connCount : Nat) (events : List PoolEvent) (use : PoolUse)
    (ran : PoolUse.machine.run ⟨create connCount, [], [], []⟩ events = some use) :
    use.env.freeSqlPool = none := by
  cases events with
  | nil =>
      cases ran
      rfl
  | cons event rest =>
      obtain ⟨next, stepped, _⟩ := PoolUse.machine.run_cons_cases _ _ event rest ran
      rcases PoolUse.step_cases _ next event stepped with ⟨_, _, took, _⟩ | ⟨_, _, _, holds, _⟩
      · cases took
      · rw [List.getElem?_nil] at holds
        cases holds

theorem run_connections (connCount : Nat) (outcomes : Nat → SqlConnectOutcome)
    (events : List PoolEvent) (use : PoolUse)
    (ran : PoolUse.machine.run (PoolUse.start connCount outcomes) events = some use) :
    PoolUse.Invariant connCount use ∧
      ∀ slot < connCount, (use.env.sqlPool slot).connect =
        some (CMySQLConnection.create.connect (outcomes slot)).2 := by
  refine PoolUse.machine.run_invariant
    (fun use => PoolUse.Invariant connCount use ∧ ∀ slot < connCount,
      (use.env.sqlPool slot).connect =
        some (CMySQLConnection.create.connect (outcomes slot)).2)
    ?_ events _ use
    ⟨PoolUse.start_invariant connCount outcomes, (allocSQLPool_spec connCount outcomes).2⟩ ran
  rintro before event next ⟨invariant, connections⟩ stepped
  refine ⟨PoolUse.Invariant.step before next event invariant stepped, fun slot less => ?_⟩
  rw [← connections slot less]
  exact invariant.step_connect before next event stepped slot

/-- Taking slots from the front, one constructor after the other. -/
theorem run_constructs (slots : List Nat) (slot : Nat) (use : PoolUse)
    (free : use.env.Free slots) (member : slot ∈ slots) :
    ∃ (events : List PoolEvent) (reached : PoolUse) (taken : DBEnv),
      PoolUse.machine.run use events = some reached ∧
        reached.env.takeSlot = some (slot, taken) := by
  induction slots generalizing use with
  | nil => cases member
  | cons front rest ih =>
      have head := free.links.1
      have takes : ∃ taken, use.env.takeSlot = some (front, taken) := by
        unfold takeSlot
        rw [head]
        exact ⟨_, rfl⟩
      obtain ⟨taken, took⟩ := takes
      rcases List.mem_cons.mp member with atFront | later
      · exact ⟨[], use, taken, rfl, atFront ▸ took⟩
      · obtain ⟨others, isFront, remaining, _⟩ := free.take took
        obtain ⟨_, rfl⟩ := List.cons.inj isFront
        obtain ⟨events, reached, final, ran, takes⟩ := ih
          ⟨taken, use.live ++ [front], use.handedOut ++ [front], use.returned⟩ remaining later
        refine ⟨.construct :: events, reached, final, ?_, takes⟩
        have stepped : PoolUse.machine.step use .construct =
            some ⟨taken, use.live ++ [front], use.handedOut ++ [front], use.returned⟩ := by
          simp only [PoolUse.machine, PoolUse.step, took]
          rfl
        rw [EventRuns.Machine.run, stepped]
        exact ran

theorem handsOutConnected_iff (connCount : Nat) (loginOutcome : SqlConnectOutcome)
    (outcomes : Nat → SqlConnectOutcome) :
    HandsOutConnected (init connCount loginOutcome outcomes) ↔
      ¬ (loginOutcome.init = true ∧ loginOutcome.realConnect = true) ∨
        ∀ slot < connCount, Succeeds (outcomes slot) := by
  unfold init
  by_cases connects : login loginOutcome = true
  · rw [if_pos connects, or_iff_right (not_not_intro ((login_iff loginOutcome).mp connects))]
    have allocated := allocSQLPool_spec connCount outcomes
    constructor
    · intro hands slot less
      obtain ⟨events, use, taken, ran, takes⟩ := run_constructs _ slot
        (PoolUse.start connCount outcomes) allocated.1
        (List.mem_reverse.mpr (List.mem_range.mpr less))
      obtain ⟨connection, isConnection, up⟩ := hands events use slot taken ran takes
      obtain ⟨⟨slots, queued⟩, _⟩ := (run_connections connCount outcomes events use ran).1
      obtain ⟨_, _, _, _, others⟩ := queued.free.take takes
      rw [(others slot).1, (run_connections connCount outcomes events use ran).2 slot less,
        Option.some.injEq] at isConnection
      rw [← isConnection] at up
      exact (create_connected_iff (outcomes slot)).mp up
    · intro succeed events use slot taken ran takes
      obtain ⟨invariant, connections⟩ := run_connections connCount outcomes events use ran
      obtain ⟨slots, queued⟩ := invariant.queued
      obtain ⟨rest, isFront, _, _, others⟩ := queued.free.take takes
      have less : slot < connCount := by
        by_contra beyond
        have one := queued.once slot
        rw [if_neg beyond, isFront, List.count_cons_self] at one
        omega
      refine ⟨_, (others slot).1.trans (connections slot less), ?_⟩
      exact (create_connected_iff (outcomes slot)).mpr (succeed slot less)
  · rw [if_neg connects, or_iff_left_of_imp]
    · refine iff_of_true ?_ fun both => connects ((login_iff loginOutcome).mpr both)
      intro events use slot taken ran takes
      rw [takeSlot, run_empty connCount events use ran] at takes
      cases takes
    · exact fun _ both => connects ((login_iff loginOutcome).mpr both)

/-- When the pool hands out only connections that are up, and when `Connect`, after any
calls on a new connection, says what became of it. -/
theorem connected_iff (connCount : Nat) (loginOutcome : SqlConnectOutcome)
    (outcomes : Nat → SqlConnectOutcome) (calls : List CMySQLConnection.Call)
    (outcome : SqlConnectOutcome) :
    (HandsOutConnected (init connCount loginOutcome outcomes) ↔
      ¬ (loginOutcome.init = true ∧ loginOutcome.realConnect = true) ∨
        ∀ slot < connCount, Succeeds (outcomes slot)) ∧
    ((((calls.foldl call CMySQLConnection.create).connect outcome).1 = true ↔
        ((calls.foldl call CMySQLConnection.create).connect outcome).2.Connected) ↔
      ¬ (calls.foldl call CMySQLConnection.create).Refused outcome) :=
  ⟨handsOutConnected_iff connCount loginOutcome outcomes,
    connect_honest_iff _ outcome (calls_coherent calls CMySQLConnection.create create_coherent)⟩

/-- A slot whose server is not reached is handed out; and after the character set
is refused `Connect` answers that it is connected. -/
theorem broken_slot_handed_out :
    ¬ HandsOutConnected (init 1 ⟨true, true, true⟩ fun _ => ⟨true, false, true⟩) ∧
      ¬ ((CMySQLConnection.create.connect ⟨true, true, false⟩).1 = true ↔
        (CMySQLConnection.create.connect ⟨true, true, false⟩).2.Connected) := by
  constructor
  · rw [handsOutConnected_iff, or_iff_right (not_not_intro ⟨rfl, rfl⟩)]
    intro succeed
    cases (succeed 0 Nat.one_pos).2.1
  · intro honest
    cases (honest.mp rfl).1

end DBEnv

end AuthServer
