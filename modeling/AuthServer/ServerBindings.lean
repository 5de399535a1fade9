/-
Histories of calls on the table of world servers.

Next to the table two facts about the past are kept: the connections that some
binding closed although the id it bound did not hold them, and for each id
whether its server has announced itself since its connection was bound.
-/

import AuthServer.Lib.EventRuns
import AuthServer.ServerList

set_option autoImplicit false

namespace AuthServer

inductive ServerListCall where
  | setServerSocketByAddress (uninitialised : WorldServer) (address : InAddr) (socket : Nat)
  | setServerSocketById (uninitialised : WorldServer) (id : ServerId) (socket : Nat)
      (actualAddress : InAddr) (actualPort : Int16)
  | removeSocket (socket : Nat)
  | setServerStatus (id : ServerId) (status : Int8)
  | setServerVIPStatus (id : ServerId) (isVIP : Int)
  | setServerUserCount (id : ServerId) (userCount userLimit : Int16)

structure Registry where
  servers : CServerList
  stray : List Nat
  announced : ServerId → Bool

namespace Registry

open CServerList

def start : Registry := ⟨CServerList.load, [], fun _ => false⟩

def binds (config : WorldConfig) (servers : CServerList) (id : ServerId) :
    ServerListCall → Bool
  | .setServerSocketByAddress uninitialised address socket =>
      match servers.find? id with
      | some server => server.innerAddr.sAddr == address.sAddr
      | none =>
          ((setServerSocketByAddress config servers uninitialised address
            socket).servers.find? id).isSome
  | .setServerSocketById _ target _ _ _ =>
      id == target && ((servers.find? target).isSome || config.allowUnknownServers)
  | _ => false

/-- Whether the id's server has announced itself after the call: a binding and a
removal start afresh, a status is taken from an id that has a connection. -/
def announcedAfter (config : WorldConfig) (registry : Registry) (call : ServerListCall)
    (id : ServerId) : Bool :=
  match call with
  | .setServerStatus target status =>
      if id = target then status != 0 && (connectionOf registry.servers id).isSome
      else registry.announced id
  | .removeSocket socket =>
      registry.announced id && connectionOf registry.servers id != some socket
  | call => registry.announced id && !binds config registry.servers id call

def tableAfter (config : WorldConfig) (servers : CServerList) : ServerListCall → CServerList
  | .setServerSocketByAddress uninitialised address socket =>
      (setServerSocketByAddress config servers uninitialised address socket).servers
  | .setServerSocketById uninitialised id socket actualAddress actualPort =>
      (setServerSocketById config servers uninitialised id socket actualAddress
        actualPort).servers
  | .removeSocket socket => removeSocket servers socket
  | .setServerStatus id status => setServerStatus servers id status
  | .setServerVIPStatus id isVIP => setServerVIPStatus servers id isVIP
  | .setServerUserCount id userCount userLimit => setServerUserCount servers id userCount userLimit

/-- The connections among the closed ones that the id was not bound to. -/
def strayOf (servers : CServerList) (id : ServerId) (dropped : List Nat) : List Nat :=
  dropped.filter fun object => connectionOf servers id != some object

def strayAfter (config : WorldConfig) (servers : CServerList) : ServerListCall → List Nat
  | .setServerSocketByAddress uninitialised address socket =>
      let binding := setServerSocketByAddress config servers uninitialised address socket
      strayOf servers binding.id binding.dropped
  | .setServerSocketById uninitialised id socket actualAddress actualPort =>
      strayOf servers id (setServerSocketById config servers uninitialised id socket
        actualAddress actualPort).dropped
  | _ => []

def step (config : WorldConfig) (registry : Registry) (call : ServerListCall) :
    Option Registry :=
  some
    { servers := tableAfter config registry.servers call
      stray := registry.stray ++ strayAfter config registry.servers call
      announced := announcedAfter config registry call }

def machine (config : WorldConfig) : EventRuns.Machine Registry ServerListCall := ⟨step config⟩

/-- Each connection is bound to at most one id. -/
def Apart (servers : CServerList) : Prop :=
  ∀ first second object, connectionOf servers first = some object →
    connectionOf servers second = some object → first = second

/-- No connection serves two ids, and no binding closed another id's connection. -/
structure Separate (registry : Registry) : Prop where
  apart : Apart registry.servers
  displaced : registry.stray = []

/-- An entry that binding the connection by the address touches, or that holds
the connection already. -/
def Touched (servers : CServerList) (address : InAddr) (socket : Nat) (id : ServerId) : Prop :=
  ∃ server, servers.find? id = some server ∧
    (server.innerAddr = address ∨ server.s = some socket)

def OneEntry (config : WorldConfig) (registry : Registry) : ServerListCall → Prop
  | .setServerSocketByAddress _ address socket =>
      (∀ first second, Touched registry.servers address socket first →
        Touched registry.servers address socket second → first = second) ∧
      (OpensEntry config registry.servers address →
        ∀ id, ¬ Touched registry.servers address socket id)
  | .setServerSocketById _ id socket _ _ =>
      (registry.servers.find? id).isSome = true ∨ config.allowUnknownServers = true →
        ∀ other, connectionOf registry.servers other = some socket → other = id
  | _ => True

theorem Apart.of_eq {servers changed : CServerList} (apart : Apart servers)
    (same : ∀ id, connectionOf changed id = connectionOf servers id) : Apart changed := by
  intro first second object atFirst atSecond
  rw [same] at atFirst atSecond
  exact apart first second object atFirst atSecond

theorem Apart.of_subset {servers changed : CServerList} (apart : Apart servers)
    (subset : ∀ id object, connectionOf changed id = some object →
      connectionOf servers id = some object) : Apart changed := by
  intro first second object atFirst atSecond
  exact apart first second object (subset first object atFirst) (subset second object atSecond)

theorem rebound_s (address : InAddr) (socket : Nat) (server : WorldServer) :
    (rebound address socket server).s =
      if server.innerAddr = address then some socket else server.s := by
  unfold rebound
  by_cases same : server.innerAddr = address
  · rw [if_pos same, if_pos (congrArg InAddr.sAddr same)]
  · rw [if_neg same, if_neg fun matching => same (InAddr.sAddr_injective _ _ matching)]

section Binding

variable {servers changed : CServerList} {address : InAddr} {socket : Nat} {id : ServerId}

/-- Behind the loop exactly the touched entries hold the connection. -/
theorem holds_iff_touched
    (looped : changed.find? id = (servers.find? id).map (rebound address socket)) :
    connectionOf changed id = some socket ↔ Touched servers address socket id := by
  rw [connectionOf_eq_some, looped]
  constructor
  · rintro ⟨server, found, holds⟩
    obtain ⟨before, foundBefore, rfl⟩ := Option.map_eq_some_iff.mp found
    rw [rebound_s] at holds
    split at holds
    · rename_i same
      exact ⟨before, foundBefore, Or.inl same⟩
    · exact ⟨before, foundBefore, Or.inr holds⟩
  · rintro ⟨server, found, touched⟩
    refine ⟨rebound address socket server, Option.map_eq_some_iff.mpr ⟨server, found, rfl⟩, ?_⟩
    rw [rebound_s]
    rcases touched with same | holds
    · rw [if_pos same]
    · rw [holds, ite_self]

theorem held_before (looped : changed.find? id = (servers.find? id).map (rebound address socket))
    (object : Nat) (other : object ≠ socket) (holds : connectionOf changed id = some object) :
    connectionOf servers id = some object := by
  rw [connectionOf_eq_some, looped] at holds
  obtain ⟨server, found, own⟩ := holds
  obtain ⟨before, foundBefore, rfl⟩ := Option.map_eq_some_iff.mp found
  rw [rebound_s] at own
  split at own
  · exact absurd (Option.some.inj own).symm other
  · exact (connectionOf_eq_some servers id object).mpr ⟨before, foundBefore, own⟩

end Binding

section ByAddress

variable (config : WorldConfig) (servers : CServerList) (uninitialised : WorldServer)
variable (address : InAddr) (socket : Nat)

theorem kept_apart (keeps : ¬ OpensEntry config servers address) (apart : Apart servers)
    (one : ∀ first second, Touched servers address socket first →
      Touched servers address socket second → first = second) :
    Apart (setServerSocketByAddress config servers uninitialised address socket).servers := by
  have looped := setServerSocketByAddress_kept config servers uninitialised address socket keeps
  intro first second object atFirst atSecond
  by_cases own : object = socket
  · subst own
    exact one first second ((holds_iff_touched (looped first)).mp atFirst)
      ((holds_iff_touched (looped second)).mp atSecond)
  · exact apart first second object (held_before (looped first) object own atFirst)
      (held_before (looped second) object own atSecond)

theorem opened_apart (opens : OpensEntry config servers address) (apart : Apart servers)
    (untouched : ∀ id, ¬ Touched servers address socket id) :
    Apart (setServerSocketByAddress config servers uninitialised address socket).servers := by
  obtain ⟨_, table⟩ := setServerSocketByAddress_opened config servers uninitialised address
    socket opens
  have atFree : connectionOf (setServerSocketByAddress config servers uninitialised address
      socket).servers (getFreeServerId servers) = some socket := by
    rw [connectionOf, table, if_pos rfl]
    rfl
  have elsewhere : ∀ id object, id ≠ getFreeServerId servers →
      connectionOf (setServerSocketByAddress config servers uninitialised address
        socket).servers id = some object →
      object ≠ socket ∧ connectionOf servers id = some object := by
    intro id object differs holds
    have looped := (table id).trans (if_neg differs)
    have other : object ≠ socket := by
      intro same
      rw [same] at holds
      exact untouched id ((holds_iff_touched looped).mp holds)
    exact ⟨other, held_before looped object other holds⟩
  intro first second object atFirst atSecond
  by_cases firstFree : first = getFreeServerId servers
  · by_cases secondFree : second = getFreeServerId servers
    · rw [firstFree, secondFree]
    · rw [firstFree, atFree, Option.some.injEq] at atFirst
      exact absurd atFirst.symm (elsewhere second object secondFree atSecond).1
  · by_cases secondFree : second = getFreeServerId servers
    · rw [secondFree, atFree, Option.some.injEq] at atSecond
      exact absurd atSecond.symm (elsewhere first object firstFree atFirst).1
    · exact apart first second object (elsewhere first object firstFree atFirst).2
        (elsewhere second object secondFree atSecond).2

/-- Only the id that is returned loses a connection. -/
theorem byAddress_stray
    (one : ∀ first second, Touched servers address socket first →
      Touched servers address socket second → first = second)
    (opening : OpensEntry config servers address → ∀ id, ¬ Touched servers address socket id) :
    strayAfter config servers (.setServerSocketByAddress uninitialised address socket) = [] := by
  apply List.filter_eq_nil_iff.mpr
  intro object member
  obtain ⟨id, server, found, same, holds⟩ := setServerSocketByAddress_closes config servers
    uninitialised address socket object member
  have touched : Touched servers address socket id := ⟨server, found, Or.inl same⟩
  have keeps : ¬ OpensEntry config servers address := fun opens => opening opens id touched
  have returned := setServerSocketByAddress_id config servers uninitialised address socket keeps id
    (fun other own foundOther matching => one other id ⟨own, foundOther, Or.inl matching⟩ touched)
    ⟨server, found, same⟩
  rw [returned, (connectionOf_eq_some servers id object).mpr ⟨server, found, holds⟩]
  simp only [bne_self_eq_false, Bool.false_eq_true, not_false_eq_true]

end ByAddress

theorem byId_connection (config : WorldConfig) (servers : CServerList)
    (uninitialised : WorldServer) (id other : ServerId) (socket : Nat) (actualAddress : InAddr)
    (actualPort : Int16) :
    connectionOf (setServerSocketById config servers uninitialised id socket actualAddress
      actualPort).servers other =
      if other = id ∧ ((servers.find? id).isSome = true ∨ config.allowUnknownServers = true) then
        some socket
      else connectionOf servers other := by
  unfold connectionOf
  rw [setServerSocketById_find?]
  by_cases same : other = id
  · subst same
    cases found : servers.find? other with
    | some server => simp [takeOver]
    | none =>
        cases allowed : config.allowUnknownServers with
        | true => simp [newServerById]
        | false => simp
  · rw [if_neg same, if_neg fun both => same both.1]

theorem byId_apart (config : WorldConfig) (servers : CServerList) (uninitialised : WorldServer)
    (id : ServerId) (socket : Nat) (actualAddress : InAddr) (actualPort : Int16)
    (apart : Apart servers)
    (free : (servers.find? id).isSome = true ∨ config.allowUnknownServers = true →
      ∀ other, connectionOf servers other = some socket → other = id) :
    Apart (setServerSocketById config servers uninitialised id socket actualAddress
      actualPort).servers := by
  intro first second object atFirst atSecond
  rw [byId_connection] at atFirst atSecond
  split at atFirst
  · rename_i bound
    have own : object = socket := (Option.some.inj atFirst).symm
    split at atSecond
    · rename_i alsoBound
      rw [bound.1, alsoBound.1]
    · rw [own] at atSecond
      rw [bound.1, free bound.2 second atSecond]
  · split at atSecond
    · rename_i bound
      have own : object = socket := (Option.some.inj atSecond).symm
      rw [own] at atFirst
      rw [bound.1, free bound.2 first atFirst]
    · exact apart first second object atFirst atSecond

theorem byId_stray (config : WorldConfig) (servers : CServerList) (uninitialised : WorldServer)
    (id : ServerId) (socket : Nat) (actualAddress : InAddr) (actualPort : Int16) :
    strayAfter config servers (.setServerSocketById uninitialised id socket actualAddress
      actualPort) = [] := by
  apply List.filter_eq_nil_iff.mpr
  intro object member
  unfold setServerSocketById at member
  cases found : servers.find? id with
  | some server =>
      rw [found] at member
      have holds : server.s = some object := Option.mem_toList.mp member
      rw [(connectionOf_eq_some servers id object).mpr ⟨server, found, holds⟩]
      simp only [bne_self_eq_false, Bool.false_eq_true, not_false_eq_true]
  | none =>
      rw [found] at member
      simp only at member
      split at member
      · cases member
      · cases member

theorem Separate.step {config : WorldConfig} {registry next : Registry}
    (separate : Separate registry) (call : ServerListCall)
    (one : OneEntry config registry call) (stepped : step config registry call = some next) :
    Separate next := by
  cases stepped
  have apart := separate.apart
  cases call with
  | setServerSocketByAddress uninitialised address socket =>
      obtain ⟨single, opening⟩ := one
      constructor
      · by_cases opens : OpensEntry config registry.servers address
        · exact opened_apart config registry.servers uninitialised address socket opens apart
            (opening opens)
        · exact kept_apart config registry.servers uninitialised address socket opens apart single
      · exact List.append_eq_nil_iff.mpr ⟨separate.displaced,
          byAddress_stray config registry.servers uninitialised address socket single opening⟩
  | setServerSocketById uninitialised id socket actualAddress actualPort =>
      constructor
      · exact byId_apart config registry.servers uninitialised id socket actualAddress actualPort
          apart one
      · exact List.append_eq_nil_iff.mpr ⟨separate.displaced,
          byId_stray config registry.servers uninitialised id socket actualAddress actualPort⟩
  | removeSocket socket =>
      constructor
      · apply apart.of_subset
        intro id object holds
        change connectionOf (removeSocket registry.servers socket) id = some object at holds
        rw [connectionOf_removeSocket] at holds
        split at holds
        · contradiction
        · exact holds
      · exact List.append_eq_nil_iff.mpr ⟨separate.displaced, rfl⟩
  | setServerStatus id status =>
      constructor
      · exact apart.of_eq fun other => connectionOf_kept _ _ _ _ fun _ => rfl
      · exact List.append_eq_nil_iff.mpr ⟨separate.displaced, rfl⟩
  | setServerVIPStatus id isVIP =>
      constructor
      · exact apart.of_eq fun other => connectionOf_kept _ _ _ _ fun _ => rfl
      · exact List.append_eq_nil_iff.mpr ⟨separate.displaced, rfl⟩
  | setServerUserCount id userCount userLimit =>
      constructor
      · exact apart.of_eq fun other => connectionOf_kept _ _ _ _ fun _ => rfl
      · exact List.append_eq_nil_iff.mpr ⟨separate.displaced, rfl⟩

/-- A call after which no connection serves two ids left its connection with one entry. -/
theorem oneEntry_of_separate {config : WorldConfig} {registry next : Registry}
    (call : ServerListCall) (stepped : step config registry call = some next)
    (separate : Separate next) : OneEntry config registry call := by
  cases stepped
  have apart := separate.apart
  cases call with
  | setServerSocketByAddress uninitialised address socket =>
      change Apart (setServerSocketByAddress config registry.servers uninitialised address
        socket).servers at apart
      by_cases opens : OpensEntry config registry.servers address
      · obtain ⟨_, table⟩ := setServerSocketByAddress_opened config registry.servers
          uninitialised address socket opens
        have untouched : ∀ id, ¬ Touched registry.servers address socket id := by
          intro id touched
          have differs : id ≠ getFreeServerId registry.servers := by
            intro same
            obtain ⟨server, found, _⟩ := touched
            rw [same, opens.2.2] at found
            cases found
          have holds := (holds_iff_touched ((table id).trans (if_neg differs))).mpr touched
          apply differs
          apply apart id (getFreeServerId registry.servers) socket holds
          rw [connectionOf, table, if_pos rfl]
          rfl
        constructor
        · intro first second touched
          exact absurd touched (untouched first)
        · exact fun _ => untouched
      · have looped := setServerSocketByAddress_kept config registry.servers uninitialised address
          socket opens
        constructor
        · intro first second atFirst atSecond
          exact apart first second socket ((holds_iff_touched (looped first)).mpr atFirst)
            ((holds_iff_touched (looped second)).mpr atSecond)
        · exact fun impossible => absurd impossible opens
  | setServerSocketById uninitialised id socket actualAddress actualPort =>
      change Apart (setServerSocketById config registry.servers uninitialised id socket
        actualAddress actualPort).servers at apart
      intro bound other holds
      by_cases same : other = id
      · exact same
      · apply apart other id socket
        · rw [byId_connection, if_neg fun both => same both.1]
          exact holds
        · rw [byId_connection, if_pos ⟨rfl, bound⟩]
  | removeSocket socket => trivial
  | setServerStatus id status => trivial
  | setServerVIPStatus id isVIP => trivial
  | setServerUserCount id userCount userLimit => trivial

theorem start_separate : Separate start where
  apart _ _ _ impossible := by cases impossible
  displaced := rfl

/-- In a history of calls no connection ever serves two ids, and none is closed
for another id's sake, exactly when every binding leaves its connection with
one entry. -/
theorem separate_throughout_iff (config : WorldConfig) (calls : List ServerListCall) :
    (machine config).Throughout Separate start calls ↔
      (machine config).Guarded (OneEntry config) start calls :=
  (machine config).throughout_iff_guarded Separate Separate (OneEntry config)
    (fun _ call _ separate one stepped => separate.step call one stepped)
    (fun _ separate => separate)
    (fun _ call _ _ stepped separate => oneEntry_of_separate call stepped separate)
    calls start start_separate

/-- Two ids on one host: a connection bound by the address takes both entries
and closes both connections. -/
theorem two_ids_one_host :
    ¬ ∀ (config : WorldConfig) (calls : List ServerListCall),
      (machine config).Throughout Separate start calls := by
  intro claimed
  have run := claimed ⟨true, true, 2104⟩
    [.setServerSocketById WorldServer.cleared ⟨1⟩ 10 ⟨10, 0, 0, 7⟩ 7777,
      .setServerSocketById WorldServer.cleared ⟨2⟩ 20 ⟨10, 0, 0, 7⟩ 7778,
      .setServerSocketByAddress WorldServer.cleared ⟨10, 0, 0, 7⟩ 30]
  have final : Separate _ := ((run.2 _ rfl).2 _ rfl).2 _ rfl
  have same := final.apart ⟨1⟩ ⟨2⟩ 30 rfl rfl
  cases same

/-- A server counts as up only after it has announced itself on the connection
it is bound to. -/
def Truthful (registry : Registry) : Prop :=
  ∀ id, isServerUp registry.servers id = true → registry.announced id = true

/-- No status is carried over to a connection, nor given to an entry without one. -/
def NoneCarried (config : WorldConfig) (registry : Registry) : ServerListCall → Prop
  | .setServerSocketByAddress uninitialised address _ =>
      (∀ id server, registry.servers.find? id = some server → server.innerAddr = address →
        server.status = 0) ∧
      (OpensEntry config registry.servers address → uninitialised.status = 0)
  | .setServerSocketById uninitialised id _ _ _ =>
      (∀ server, registry.servers.find? id = some server → server.status = 0) ∧
      (registry.servers.find? id = none → config.allowUnknownServers = true →
        uninitialised.status = 0)
  | .setServerStatus id status =>
      status ≠ 0 → ∀ server, registry.servers.find? id = some server → server.s ≠ none
  | _ => True

theorem isServerUp_iff (servers : CServerList) (id : ServerId) :
    isServerUp servers id = true ↔
      ∃ server, servers.find? id = some server ∧ server.status ≠ 0 := by
  unfold isServerUp
  cases servers.find? id with
  | none => simp only [Bool.false_eq_true, reduceCtorEq, false_and, exists_false]
  | some server => simp only [bne_iff_ne, Option.some.injEq, exists_eq_left']

theorem rebound_status (address : InAddr) (socket : Nat) (server : WorldServer) :
    (rebound address socket server).status = server.status := by
  unfold rebound
  split
  · rfl
  · rfl

section Truth

variable {config : WorldConfig} {registry : Registry}

theorem Truthful.announced_of_unbound (truthful : Truthful registry) {id : ServerId}
    {server : WorldServer} (found : registry.servers.find? id = some server)
    (up : server.status ≠ 0) {call : ServerListCall}
    (unbound : binds config registry.servers id call = false) :
    (registry.announced id && !binds config registry.servers id call) = true := by
  rw [truthful id ((isServerUp_iff _ _).mpr ⟨server, found, up⟩), unbound]
  rfl

theorem Truthful.byAddress (truthful : Truthful registry) (uninitialised : WorldServer)
    (address : InAddr) (socket : Nat)
    (uncarried : NoneCarried config registry (.setServerSocketByAddress uninitialised address socket))
    (id : ServerId)
    (up : isServerUp (setServerSocketByAddress config registry.servers uninitialised address
      socket).servers id = true) :
    announcedAfter config registry (.setServerSocketByAddress uninitialised address socket) id =
      true := by
  obtain ⟨silent, fresh⟩ := uncarried
  obtain ⟨server, found, status⟩ := (isServerUp_iff _ _).mp up
  have visited : (registry.servers.find? id).map (rebound address socket) = some server := by
    by_cases opens : OpensEntry config registry.servers address
    · obtain ⟨_, table⟩ := setServerSocketByAddress_opened config registry.servers uninitialised
        address socket opens
      rw [table] at found
      split at found
      · rw [← Option.some.inj found] at status
        exact absurd (fresh opens) status
      · exact found
    · rw [← setServerSocketByAddress_kept config registry.servers uninitialised address socket
        opens]
      exact found
  obtain ⟨before, foundBefore, rfl⟩ := Option.map_eq_some_iff.mp visited
  rw [rebound_status] at status
  apply truthful.announced_of_unbound foundBefore status
  have differs : before.innerAddr.sAddr ≠ address.sAddr := fun same =>
    status (silent id before foundBefore (InAddr.sAddr_injective _ _ same))
  simp only [binds, foundBefore]
  exact beq_eq_false_iff_ne.mpr differs

theorem Truthful.byId (truthful : Truthful registry) (uninitialised : WorldServer)
    (target : ServerId) (socket : Nat) (actualAddress : InAddr) (actualPort : Int16)
    (uncarried : NoneCarried config registry (.setServerSocketById uninitialised target socket
      actualAddress actualPort))
    (id : ServerId)
    (up : isServerUp (setServerSocketById config registry.servers uninitialised target socket
      actualAddress actualPort).servers id = true) :
    announcedAfter config registry (.setServerSocketById uninitialised target socket
      actualAddress actualPort) id = true := by
  obtain ⟨silent, fresh⟩ := uncarried
  obtain ⟨server, found, status⟩ := (isServerUp_iff _ _).mp up
  rw [setServerSocketById_find?] at found
  by_cases same : id = target
  · rw [if_pos same] at found
    cases foundTarget : registry.servers.find? target with
    | some before =>
        rw [foundTarget] at found
        rw [← Option.some.inj found] at status
        exact absurd (silent before foundTarget) status
    | none =>
        rw [foundTarget] at found
        simp only at found
        split at found
        · rename_i allowed
          rw [← Option.some.inj found] at status
          exact absurd (fresh foundTarget allowed) status
        · contradiction
  · rw [if_neg same] at found
    apply truthful.announced_of_unbound found status
    rw [binds, beq_eq_false_iff_ne.mpr same, Bool.false_and]

theorem isServerUp_modify (servers : CServerList) (target id : ServerId)
    (change : WorldServer → WorldServer)
    (keeps : ∀ server, (change server).status = server.status) :
    isServerUp (servers.modify target change) id = isServerUp servers id := by
  unfold isServerUp
  rw [OrderedMap.find?_modify]
  by_cases same : id = target
  · rw [if_pos same, same]
    cases servers.find? target with
    | none => rfl
    | some server => simp only [Option.map_some, keeps]
  · rw [if_neg same]

theorem Truthful.removeSocket (truthful : Truthful registry) (socket : Nat) (id : ServerId)
    (up : isServerUp (CServerList.removeSocket registry.servers socket) id = true) :
    announcedAfter config registry (.removeSocket socket) id = true := by
  obtain ⟨server, found, status⟩ := (isServerUp_iff _ _).mp up
  rw [removeSocket_find?] at found
  obtain ⟨before, foundBefore, changed⟩ := Option.map_eq_some_iff.mp found
  split at changed
  · rw [← changed] at status
    exact absurd rfl status
  · rename_i other
    rw [← changed] at status
    have upBefore := (isServerUp_iff _ _).mpr ⟨before, foundBefore, status⟩
    have connection : connectionOf registry.servers id = before.s := by
      rw [connectionOf, foundBefore]
      rfl
    rw [announcedAfter, truthful id upBefore, connection, Bool.true_and]
    exact bne_iff_ne.mpr other

theorem Truthful.setServerStatus (truthful : Truthful registry) (target : ServerId)
    (status : Int8) (uncarried : NoneCarried config registry (.setServerStatus target status))
    (id : ServerId)
    (up : isServerUp (CServerList.setServerStatus registry.servers target status) id = true) :
    announcedAfter config registry (.setServerStatus target status) id = true := by
  obtain ⟨server, found, nonzero⟩ := (isServerUp_iff _ _).mp up
  rw [CServerList.setServerStatus, OrderedMap.find?_modify] at found
  rw [announcedAfter]
  by_cases same : id = target
  · rw [if_pos same] at found ⊢
    obtain ⟨before, foundBefore, changed⟩ := Option.map_eq_some_iff.mp found
    rw [← changed] at nonzero
    have connected := uncarried nonzero before foundBefore
    obtain ⟨object, holds⟩ := Option.ne_none_iff_exists'.mp connected
    rw [bne_iff_ne.mpr nonzero, same,
      (connectionOf_eq_some _ _ _).mpr ⟨before, foundBefore, holds⟩]
    rfl
  · rw [if_neg same] at found ⊢
    exact truthful id ((isServerUp_iff _ _).mpr ⟨server, found, nonzero⟩)

theorem Truthful.step {next : Registry} (truthful : Truthful registry) (call : ServerListCall)
    (uncarried : NoneCarried config registry call) (stepped : step config registry call = some next) :
    Truthful next := by
  cases stepped
  intro id up
  cases call with
  | setServerSocketByAddress uninitialised address socket =>
      exact truthful.byAddress uninitialised address socket uncarried id up
  | setServerSocketById uninitialised target socket actualAddress actualPort =>
      exact truthful.byId uninitialised target socket actualAddress actualPort uncarried id up
  | removeSocket socket =>
      change announcedAfter config registry (.removeSocket socket) id = true
      exact truthful.removeSocket socket id up
  | setServerStatus target status => exact truthful.setServerStatus target status uncarried id up
  | setServerVIPStatus target isVIP =>
      have same := isServerUp_modify registry.servers target id
        (fun server => { server with isVIP := isVIP }) fun _ => rfl
      exact Bool.and_eq_true_iff.mpr ⟨truthful id (same.symm.trans up), rfl⟩
  | setServerUserCount target userCount userLimit =>
      have same := isServerUp_modify registry.servers target id
        (fun server =>
          { server with userNum := userCount.toInt, maxUsers := userLimit.toInt }) fun _ => rfl
      exact Bool.and_eq_true_iff.mpr ⟨truthful id (same.symm.trans up), rfl⟩

/-- An id that the call binds has not announced itself after it. -/
theorem silent_of_bound {call : ServerListCall} {id : ServerId} {server : WorldServer}
    (bound : binds config registry.servers id call = true)
    (announced : isServerUp (tableAfter config registry.servers call) id = true →
      (registry.announced id && !binds config registry.servers id call) = true)
    (found : (tableAfter config registry.servers call).find? id = some server) :
    server.status = 0 := by
  by_contra nonzero
  have silent := announced ((isServerUp_iff _ _).mpr ⟨server, found, nonzero⟩)
  rw [bound, Bool.not_true, Bool.and_false] at silent
  cases silent

theorem noneCarried_byAddress (uninitialised : WorldServer) (address : InAddr) (socket : Nat)
    (announced : ∀ id,
      isServerUp (tableAfter config registry.servers
        (.setServerSocketByAddress uninitialised address socket)) id = true →
      (registry.announced id && !binds config registry.servers id
        (.setServerSocketByAddress uninitialised address socket)) = true) :
    NoneCarried config registry (.setServerSocketByAddress uninitialised address socket) := by
  constructor
  · intro id server found same
    have bound : binds config registry.servers id
        (.setServerSocketByAddress uninitialised address socket) = true := by
      simp only [binds, found, same, beq_self_eq_true]
    have after : (tableAfter config registry.servers
        (.setServerSocketByAddress uninitialised address socket)).find? id =
          some (rebound address socket server) := by
      by_cases opens : OpensEntry config registry.servers address
      · obtain ⟨_, table⟩ := setServerSocketByAddress_opened config registry.servers
          uninitialised address socket opens
        have differs : id ≠ getFreeServerId registry.servers := by
          intro free
          rw [free, opens.2.2] at found
          cases found
        exact (table id).trans ((if_neg differs).trans (by rw [found, Option.map_some]))
      · exact (setServerSocketByAddress_kept config registry.servers uninitialised address socket
          opens id).trans (by rw [found, Option.map_some])
    rw [← rebound_status address socket server]
    exact silent_of_bound bound (announced id) after
  · intro opens
    obtain ⟨_, table⟩ := setServerSocketByAddress_opened config registry.servers uninitialised
      address socket opens
    have atFree := (table (getFreeServerId registry.servers)).trans (if_pos rfl)
    have bound : binds config registry.servers (getFreeServerId registry.servers)
        (.setServerSocketByAddress uninitialised address socket) = true := by
      simp only [binds, opens.2.2, atFree, Option.isSome_some]
    have silent := silent_of_bound bound (announced _) atFree
    exact silent

theorem noneCarried_byId (uninitialised : WorldServer) (target : ServerId) (socket : Nat)
    (actualAddress : InAddr) (actualPort : Int16)
    (announced : ∀ id,
      isServerUp (tableAfter config registry.servers (.setServerSocketById uninitialised target
        socket actualAddress actualPort)) id = true →
      (registry.announced id && !binds config registry.servers id
        (.setServerSocketById uninitialised target socket actualAddress actualPort)) = true) :
    NoneCarried config registry (.setServerSocketById uninitialised target socket actualAddress
      actualPort) := by
  have table := setServerSocketById_find? config registry.servers uninitialised target target
    socket actualAddress actualPort
  rw [if_pos rfl] at table
  constructor
  · intro server found
    rw [found] at table
    have bound : binds config registry.servers target (.setServerSocketById uninitialised target
        socket actualAddress actualPort) = true := by
      simp only [binds, found, beq_self_eq_true, Option.isSome_some, Bool.true_or, Bool.true_and]
    have silent := silent_of_bound bound (announced target) table
    exact silent
  · intro missing allowed
    simp only [missing, if_pos allowed] at table
    have bound : binds config registry.servers target (.setServerSocketById uninitialised target
        socket actualAddress actualPort) = true := by
      simp only [binds, missing, allowed, beq_self_eq_true, Bool.or_true, Bool.true_and]
    have silent := silent_of_bound bound (announced target) table
    exact silent

/-- A call after which no silent server counts as up carried no status over. -/
theorem noneCarried_of_truthful {next : Registry} (call : ServerListCall)
    (stepped : Registry.step config registry call = some next) (truthful : Truthful next) :
    NoneCarried config registry call := by
  cases stepped
  cases call with
  | setServerSocketByAddress uninitialised address socket =>
      exact noneCarried_byAddress uninitialised address socket truthful
  | setServerSocketById uninitialised target socket actualAddress actualPort =>
      exact noneCarried_byId uninitialised target socket actualAddress actualPort truthful
  | removeSocket socket => trivial
  | setServerStatus target status =>
      intro nonzero server found unconnected
      have after : (CServerList.setServerStatus registry.servers target status).find? target =
          some { server with status := status } := by
        rw [CServerList.setServerStatus, OrderedMap.find?_modify, if_pos rfl, found,
          Option.map_some]
      have announced := truthful target ((isServerUp_iff _ _).mpr ⟨_, after, nonzero⟩)
      have connection : connectionOf registry.servers target = none := by
        rw [connectionOf, found]
        exact unconnected
      simp only [announcedAfter, if_true, connection, Option.isSome_none, Bool.and_false,
        Bool.false_eq_true] at announced
  | setServerVIPStatus target isVIP => trivial
  | setServerUserCount target userCount userLimit => trivial

end Truth

/-- In a history of calls a server that is up has always announced itself on
its connection exactly when no call carries a status over to a connection. -/
theorem status_truthful_throughout_iff (config : WorldConfig) (calls : List ServerListCall) :
    (machine config).Throughout Truthful start calls ↔
      (machine config).Guarded (NoneCarried config) start calls :=
  (machine config).throughout_iff_guarded Truthful Truthful (NoneCarried config)
    (fun _ call _ truthful uncarried stepped => truthful.step call uncarried stepped)
    (fun _ truthful => truthful)
    (fun _ call _ _ stepped truthful => noneCarried_of_truthful call stepped truthful)
    calls start (fun _ impossible => by cases impossible)

/-- A server that was up stays up when another connection takes its entry. -/
theorem status_survives_rebinding :
    ¬ ∀ (config : WorldConfig) (calls : List ServerListCall),
      (machine config).Throughout Truthful start calls := by
  intro claimed
  have run := claimed ⟨true, true, 2104⟩
    [.setServerSocketById WorldServer.cleared ⟨1⟩ 10 ⟨10, 0, 0, 7⟩ 7777,
      .setServerStatus ⟨1⟩ 1,
      .setServerSocketById WorldServer.cleared ⟨1⟩ 20 ⟨10, 0, 0, 7⟩ 7777]
  have final : Truthful _ := ((run.2 _ rfl).2 _ rfl).2 _ rfl
  have announced := final ⟨1⟩ rfl
  cases announced

end Registry

end AuthServer
