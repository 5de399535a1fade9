/-
World server connections as `CServer` keeps them.

Accepting a connection writes the table of world servers and the map from
addresses to connections; closing one goes through `CIOSocket::CloseSocket` and
the `OnClose` of its class.  Each event runs to its end.  `connections` lists
the connection objects that were registered, the one accepted last first, also
when they have been deleted since; objects are numbered as they are made.
-/

import AuthServer.Lib.EventRuns
import AuthServer.ServerList

set_option autoImplicit false

namespace AuthServer

structure WorldConnection where
  object : Nat
  addr : InAddr
  serverid : ServerId
  handleOpen : Bool

structure CServer where
  serverList : CServerList
  socketmap : OrderedMap UInt32 Nat
  connections : List WorldConnection
  nextObject : Nat

inductive ServerEvent where
  | accept (address : InAddr) (uninitialised : WorldServer)
  | closeSocket (object : Nat)

namespace CServer

def start : CServer := ⟨CServerList.load, OrderedMap.empty, [], 0⟩

/-- `CSocketServer::OnClose`, whose body is empty. -/
def onClose (server : CServer) (_object : Nat) : CServer := server

def closeSocket (server : CServer) (object : Nat) : CServer :=
  if server.connections.any fun connection =>
      connection.object == object && connection.handleOpen then
    let server := onClose server object
    { server with
      connections := server.connections.map fun connection =>
        if connection.object = object then { connection with handleOpen := false }
        else connection }
  else server

def allocate (server : CServer) (address : InAddr) : CServer :=
  { server with
    connections :=
      ⟨server.nextObject, address, ServerId.invalid, true⟩ :: server.connections
    nextObject := server.nextObject + 1 }

def delete (server : CServer) (object : Nat) : CServer :=
  { server with
    connections := server.connections.filter fun connection => connection.object != object }

/-- The end of `CreateSocket`: the connection gets its id, and the map an entry
where its address has none. -/
def register (server : CServer) (address : InAddr) (object : Nat) (id : ServerId) : CServer :=
  { server with
    connections := server.connections.map fun connection =>
      if connection.object = object then { connection with serverid := id }
      else connection
    socketmap := server.socketmap.insert address.sAddr object }

def createSocket (config : WorldConfig) (server : CServer) (address : InAddr)
    (uninitialised : WorldServer) : CServer :=
  let mysocket := server.nextObject
  let server := server.allocate address
  if config.gameServerSpecifiesId then server.register address mysocket ServerId.invalid
  else
    let binding := server.serverList.setServerSocketByAddress config uninitialised address
      mysocket
    let server := binding.dropped.foldl closeSocket server
    let server := { server with serverList := binding.servers }
    if binding.id.isValid then server.register address mysocket binding.id
    else server.delete mysocket

def findSocket (server : CServer) (address : InAddr) : Option Nat :=
  server.socketmap.find? address.sAddr

def getServerStatus (server : CServer) (address : InAddr) : Bool :=
  (server.socketmap.find? address.sAddr).isSome

def step (config : WorldConfig) (server : CServer) : ServerEvent → Option CServer
  | .accept address uninitialised => some (server.createSocket config address uninitialised)
  | .closeSocket object =>
      if server.connections.any fun connection => connection.object == object then
        some (server.closeSocket object)
      else none

def machine (config : WorldConfig) : EventRuns.Machine CServer ServerEvent := ⟨step config⟩

def IsOpen (server : CServer) (object : Nat) : Prop :=
  ∃ connection ∈ server.connections,
    connection.object = object ∧ connection.handleOpen = true

def FromOpen (server : CServer) (address : InAddr) : Prop :=
  ∃ connection ∈ server.connections,
    connection.addr = address ∧ connection.handleOpen = true

def latestOpen (server : CServer) (address : InAddr) : Option Nat :=
  (server.connections.find? fun connection =>
    connection.handleOpen && decide (connection.addr = address)).map WorldConnection.object

/-- What the lookups report and the table points to is open. -/
structure Truthful (server : CServer) : Prop where
  status : ∀ address, server.getServerStatus address = true → server.FromOpen address
  found : ∀ address object, server.findSocket address = some object →
    server.FromOpen address ∧ server.latestOpen address = some object
  bound : ∀ entry ∈ server.serverList.entries, ∀ object, entry.2.s = some object →
    server.IsOpen object

/-- An accept from an address that has no open connection, and not one that
needs a new id after 255; a close of nothing that is open. -/
def Undisturbed (config : WorldConfig) (server : CServer) : ServerEvent → Prop
  | .accept address _ =>
      ¬ server.FromOpen address ∧
        ¬ (config.gameServerSpecifiesId = false ∧ config.allowUnknownServers = true ∧
          server.serverList.lastKey? = some ⟨255⟩)
  | .closeSocket object => ¬ server.IsOpen object

/-- All connections are open, the map leads from each address to its
connection, and the table's entries belong to them. -/
structure Held (config : WorldConfig) (server : CServer) : Prop where
  allOpen : ∀ connection ∈ server.connections, connection.handleOpen = true
  fresh : ∀ connection ∈ server.connections, connection.object < server.nextObject
  mapped : ∀ connection ∈ server.connections,
    server.findSocket connection.addr = some connection.object
  found : ∀ address object, server.findSocket address = some object →
    ∃ connection ∈ server.connections,
      connection.addr = address ∧ connection.object = object
  bound : ∀ entry ∈ server.serverList.entries, ∃ connection ∈ server.connections,
    entry.2.s = some connection.object ∧ entry.2.innerAddr = connection.addr
  valid : ∀ entry ∈ server.serverList.entries, entry.1.isValid = true
  listed : config.gameServerSpecifiesId = false → ∀ connection ∈ server.connections,
    ∃ entry ∈ server.serverList.entries, entry.2.innerAddr = connection.addr

theorem start_held (config : WorldConfig) : Held config start where
  allOpen := List.forall_mem_nil _
  fresh := List.forall_mem_nil _
  mapped := List.forall_mem_nil _
  found _ _ impossible := by cases impossible
  bound := List.forall_mem_nil _
  valid := List.forall_mem_nil _
  listed _ := List.forall_mem_nil _

theorem latestOpen_some (server : CServer) (address : InAddr) (object : Nat)
    (latest : server.latestOpen address = some object) :
    ∃ connection ∈ server.connections, connection.object = object ∧
      connection.addr = address ∧ connection.handleOpen = true := by
  obtain ⟨connection, found, same⟩ := Option.map_eq_some_iff.mp latest
  have holds := List.find?_some found
  rw [Bool.and_eq_true, decide_eq_true_eq] at holds
  exact ⟨connection, List.mem_of_find?_eq_some found, same, holds.2, holds.1⟩

theorem latestOpen_isSome (server : CServer) (address : InAddr)
    (fromOpen : server.FromOpen address) : ∃ object, server.latestOpen address = some object := by
  obtain ⟨connection, member, same, isOpen⟩ := fromOpen
  have present : (server.connections.find? fun connection =>
      connection.handleOpen && decide (connection.addr = address)).isSome = true := by
    apply List.find?_isSome.mpr
    exact ⟨connection, member, by rw [isOpen, Bool.true_and, decide_eq_true same]⟩
  obtain ⟨first, found⟩ := Option.isSome_iff_exists.mp present
  exact ⟨first.object, by rw [latestOpen, found, Option.map_some]⟩

theorem Held.truthful {config : WorldConfig} {server : CServer} (held : server.Held config) :
    server.Truthful := by
  have foundOpen : ∀ address object, server.findSocket address = some object →
      server.FromOpen address := by
    intro address object found
    obtain ⟨connection, member, same, _⟩ := held.found address object found
    exact ⟨connection, member, same, held.allOpen connection member⟩
  constructor
  · intro address reported
    obtain ⟨object, found⟩ := Option.isSome_iff_exists.mp reported
    exact foundOpen address object found
  · intro address object found
    constructor
    · exact foundOpen address object found
    · obtain ⟨latest, isLatest⟩ := server.latestOpen_isSome address
        (foundOpen address object found)
      obtain ⟨connection, member, sameObject, sameAddr, _⟩ :=
        server.latestOpen_some address latest isLatest
      have mapped := held.mapped connection member
      rw [sameAddr, found, Option.some.injEq, sameObject] at mapped
      rw [isLatest, mapped]
  · intro entry member object points
    obtain ⟨connection, present, own, _⟩ := held.bound entry member
    rw [own, Option.some.injEq] at points
    exact ⟨connection, present, points, held.allOpen connection present⟩

theorem Held.unknown {config : WorldConfig} {server : CServer} (held : server.Held config)
    (address : InAddr) (absent : ¬ server.FromOpen address) :
    ∀ entry ∈ server.serverList.entries, entry.2.innerAddr ≠ address := by
  intro entry member same
  obtain ⟨connection, present, _, own⟩ := held.bound entry member
  exact absent ⟨connection, present, own.symm.trans same, held.allOpen connection present⟩

theorem Held.unmapped {config : WorldConfig} {server : CServer} (held : server.Held config)
    (address : InAddr) (absent : ¬ server.FromOpen address) :
    server.findSocket address = none := by
  cases found : server.findSocket address with
  | none => rfl
  | some object =>
      obtain ⟨connection, present, same, _⟩ := held.found address object found
      exact absurd ⟨connection, present, same, held.allOpen connection present⟩ absent

def joined (server : CServer) (address : InAddr) (id : ServerId) (table : CServerList) :
    CServer where
  serverList := table
  socketmap := server.socketmap.insert address.sAddr server.nextObject
  connections := ⟨server.nextObject, address, id, true⟩ :: server.connections
  nextObject := server.nextObject + 1

theorem findSocket_joined (server : CServer) (address other : InAddr) (id : ServerId)
    (table : CServerList) :
    (server.joined address id table).findSocket other =
      if other = address then some ((server.findSocket address).getD server.nextObject)
      else server.findSocket other := by
  unfold findSocket joined
  rw [OrderedMap.find?_insert]
  by_cases same : other = address
  · rw [if_pos same, if_pos (congrArg InAddr.sAddr same)]
  · rw [if_neg same, if_neg fun key => same (InAddr.sAddr_injective _ _ key)]

theorem change_absent (connections : List WorldConnection) (object : Nat)
    (change : WorldConnection → WorldConnection)
    (absent : ∀ connection ∈ connections, connection.object ≠ object) :
    (connections.map fun connection =>
      if connection.object = object then change connection else connection) = connections := by
  have same : ∀ connection ∈ connections,
      (if connection.object = object then change connection else connection) =
        connection := fun connection member => if_neg (absent connection member)
  rw [List.map_congr_left same, List.map_id']

theorem register_allocate (server : CServer) (address : InAddr) (id : ServerId)
    (table : CServerList)
    (fresh : ∀ connection ∈ server.connections, connection.object < server.nextObject) :
    ({ server.allocate address with serverList := table } : CServer).register address
      server.nextObject id = server.joined address id table := by
  have others := change_absent server.connections server.nextObject
    (fun connection => { connection with serverid := id })
    fun connection member => ne_of_lt (fresh connection member)
  simp only [register, allocate, joined, List.map_cons, if_true, others]

theorem delete_allocate (server : CServer) (address : InAddr) (table : CServerList)
    (fresh : ∀ connection ∈ server.connections, connection.object < server.nextObject) :
    ({ server.allocate address with serverList := table } : CServer).delete
      server.nextObject =
        { server with serverList := table, nextObject := server.nextObject + 1 } := by
  have others : server.connections.filter
      (fun connection => connection.object != server.nextObject) = server.connections := by
    apply List.filter_eq_self.mpr
    intro connection member
    exact bne_iff_ne.mpr (ne_of_lt (fresh connection member))
  simp only [delete, allocate, List.filter_cons, bne_self_eq_false, Bool.false_eq_true,
    if_false, others]

theorem createSocket_unknown (config : WorldConfig) (server : CServer) (address : InAddr)
    (uninitialised : WorldServer)
    (fresh : ∀ connection ∈ server.connections, connection.object < server.nextObject)
    (unknown : ∀ entry ∈ server.serverList.entries, entry.2.innerAddr ≠ address) :
    server.createSocket config address uninitialised =
      if config.gameServerSpecifiesId then
        server.joined address ServerId.invalid server.serverList
      else if config.allowUnknownServers then
        let id := server.serverList.getFreeServerId
        let table := server.serverList.insert id
          (CServerList.newServer config uninitialised id address server.nextObject)
        if id.isValid then server.joined address id table
        else { server with serverList := table, nextObject := server.nextObject + 1 }
      else { server with nextObject := server.nextObject + 1 } := by
  have bound := CServerList.setServerSocketByAddress_unknown config server.serverList
    uninitialised address server.nextObject unknown
  have untouched : (server.allocate address).serverList = server.serverList := rfl
  have registered := fun id table => server.register_allocate address id table fresh
  have deleted := fun table => server.delete_allocate address table fresh
  unfold createSocket
  simp only [untouched]
  by_cases specified : config.gameServerSpecifiesId = true
  · rw [if_pos specified, if_pos specified]
    exact registered ServerId.invalid server.serverList
  · rw [if_neg specified, if_neg specified]
    by_cases allowed : config.allowUnknownServers = true
    · rw [if_pos allowed] at bound
      rw [bound, if_pos allowed]
      simp only [List.foldl_nil, registered, deleted]
    · rw [if_neg allowed] at bound
      rw [bound, if_neg allowed]
      simp only [List.foldl_nil, deleted]
      rfl

theorem Held.joined {config : WorldConfig} {server : CServer} (held : server.Held config)
    (address : InAddr) (absent : ¬ server.FromOpen address) (id : ServerId)
    (table : CServerList)
    (entries : ∀ entry ∈ table.entries, entry ∈ server.serverList.entries ∨
      entry.1.isValid = true ∧ entry.2.s = some server.nextObject ∧
        entry.2.innerAddr = address)
    (kept : ∀ entry ∈ server.serverList.entries, entry ∈ table.entries)
    (own : config.gameServerSpecifiesId = false →
      ∃ entry ∈ table.entries, entry.2.innerAddr = address) :
    (server.joined address id table).Held config := by
  have unmapped := held.unmapped address absent
  have atAddress : (server.joined address id table).findSocket address =
      some server.nextObject := by
    rw [findSocket_joined, if_pos rfl, unmapped]
    rfl
  have elsewhere : ∀ other, other ≠ address →
      (server.joined address id table).findSocket other = server.findSocket other := by
    intro other differs
    rw [findSocket_joined, if_neg differs]
  constructor
  · intro connection member
    rcases List.mem_cons.mp member with isNew | old
    · rw [isNew]
    · exact held.allOpen connection old
  · intro connection member
    rcases List.mem_cons.mp member with isNew | old
    · rw [isNew]
      exact Nat.lt_succ_self _
    · exact Nat.lt_succ_of_lt (held.fresh connection old)
  · intro connection member
    rcases List.mem_cons.mp member with isNew | old
    · rw [isNew]
      exact atAddress
    · rw [elsewhere connection.addr fun same =>
        absent ⟨connection, old, same, held.allOpen connection old⟩]
      exact held.mapped connection old
  · intro other object found
    by_cases same : other = address
    · rw [same, atAddress, Option.some.injEq] at found
      exact ⟨_, List.mem_cons_self, same.symm, found⟩
    · rw [elsewhere other same] at found
      obtain ⟨connection, old, holds⟩ := held.found other object found
      exact ⟨connection, List.mem_cons_of_mem _ old, holds⟩
  · intro entry member
    rcases entries entry member with before | ⟨_, points, inner⟩
    · obtain ⟨connection, old, holds⟩ := held.bound entry before
      exact ⟨connection, List.mem_cons_of_mem _ old, holds⟩
    · exact ⟨_, List.mem_cons_self, points, inner⟩
  · intro entry member
    rcases entries entry member with before | ⟨valid, _⟩
    · exact held.valid entry before
    · exact valid
  · intro unspecified connection member
    rcases List.mem_cons.mp member with isNew | old
    · rw [isNew]
      exact own unspecified
    · obtain ⟨entry, before, inner⟩ := held.listed unspecified connection old
      exact ⟨entry, kept entry before, inner⟩

theorem Held.counted {config : WorldConfig} {server : CServer} (held : server.Held config) :
    ({ server with nextObject := server.nextObject + 1 } : CServer).Held config :=
  ⟨held.allOpen, fun connection member => Nat.lt_succ_of_lt (held.fresh connection member),
    held.mapped, held.found, held.bound, held.valid, held.listed⟩

theorem Held.accept {config : WorldConfig} {server : CServer} (held : server.Held config)
    (address : InAddr) (uninitialised : WorldServer)
    (undisturbed : server.Undisturbed config (.accept address uninitialised)) :
    (server.createSocket config address uninitialised).Held config := by
  obtain ⟨absent, room⟩ := undisturbed
  rw [createSocket_unknown config server address uninitialised held.fresh
    (held.unknown address absent)]
  split
  · rename_i specified
    apply held.joined address absent
    · exact fun entry member => Or.inl member
    · exact fun entry member => member
    · intro unspecified
      rw [specified] at unspecified
      contradiction
  · rename_i unspecified
    split
    · rename_i allowed
      have valid : server.serverList.getFreeServerId.isValid = true := by
        apply server.serverList.getFreeServerId_valid_iff.mpr
        exact fun last => room ⟨Bool.eq_false_iff.mpr unspecified, allowed, last⟩
      have missing := server.serverList.getFreeServerId_missing valid
      simp only [if_pos valid]
      apply held.joined address absent
      · intro entry member
        rcases OrderedMap.mem_insert _ _ _ entry member with isNew | old
        · rw [isNew]
          exact Or.inr ⟨valid, rfl, rfl⟩
        · exact Or.inl old
      · exact fun entry member => OrderedMap.subset_insert _ _ _ entry member
      · exact fun _ => ⟨_, OrderedMap.new_mem_insert _ _ _ missing, rfl⟩
    · exact held.counted

theorem closeSocket_closed (server : CServer) (object : Nat) (closed : ¬ server.IsOpen object) :
    server.closeSocket object = server := by
  unfold closeSocket
  apply if_neg
  intro present
  obtain ⟨connection, member, holds⟩ := List.any_eq_true.mp present
  rw [Bool.and_eq_true, beq_iff_eq] at holds
  exact closed ⟨connection, member, holds⟩

theorem Held.step {config : WorldConfig} {server next : CServer} (held : server.Held config)
    (event : ServerEvent) (undisturbed : server.Undisturbed config event)
    (stepped : CServer.step config server event = some next) : next.Held config := by
  cases event with
  | accept address uninitialised =>
      cases stepped
      exact held.accept address uninitialised undisturbed
  | closeSocket object =>
      unfold CServer.step at stepped
      simp only at stepped
      split at stepped
      · rw [closeSocket_closed server object undisturbed] at stepped
        cases stepped
        exact held
      · contradiction

/-- Closing other objects leaves the map and the newest connection alone. -/
theorem foldl_closeSocket (objects : List Nat) (server : CServer) (head : WorldConnection)
    (rest : List WorldConnection) (shape : server.connections = head :: rest)
    (others : ∀ object ∈ objects, object ≠ head.object) :
    (objects.foldl closeSocket server).socketmap = server.socketmap ∧
      ∃ more, (objects.foldl closeSocket server).connections = head :: more := by
  induction objects generalizing server rest with
  | nil => exact ⟨rfl, rest, shape⟩
  | cons object later ih =>
      have differs := others object List.mem_cons_self
      have closed : (server.closeSocket object).socketmap = server.socketmap ∧
          ∃ more, (server.closeSocket object).connections = head :: more := by
        unfold closeSocket onClose
        simp only
        split
        · constructor
          · rfl
          · rw [shape, List.map_cons, if_neg (Ne.symm differs)]
            exact ⟨_, rfl⟩
        · exact ⟨rfl, rest, shape⟩
      obtain ⟨sameMap, more, newShape⟩ := closed
      obtain ⟨map, shapeAfter⟩ := ih (server.closeSocket object) more newShape
        fun other member => others other (List.mem_cons_of_mem object member)
      exact ⟨map.trans sameMap, shapeAfter⟩

/-- A second connection from an address is the one accepted last, while the map
keeps the first. -/
theorem Held.accept_again {config : WorldConfig} {server : CServer} (held : server.Held config)
    (address : InAddr) (uninitialised : WorldServer) (present : server.FromOpen address) :
    (server.createSocket config address uninitialised).latestOpen address =
        some server.nextObject ∧
      ∃ first, first ≠ server.nextObject ∧
        (server.createSocket config address uninitialised).findSocket address =
          some first := by
  obtain ⟨connection, member, same, _⟩ := present
  have before := held.mapped connection member
  rw [same] at before
  have older : connection.object ≠ server.nextObject := ne_of_lt (held.fresh connection member)
  have registered : ∀ (middle : CServer) (id : ServerId),
      middle.socketmap = server.socketmap →
      (∃ more, middle.connections =
        ⟨server.nextObject, address, ServerId.invalid, true⟩ :: more) →
      (middle.register address server.nextObject id).latestOpen address =
          some server.nextObject ∧
        ∃ first, first ≠ server.nextObject ∧
          (middle.register address server.nextObject id).findSocket address = some first := by
    intro middle id sameMap shape
    obtain ⟨more, connections⟩ := shape
    constructor
    · unfold latestOpen register
      simp only [connections, List.map_cons, if_true]
      rw [List.find?_cons_of_pos (by rw [Bool.true_and, decide_eq_true rfl]), Option.map_some]
    · refine ⟨connection.object, older, ?_⟩
      unfold findSocket register
      rw [sameMap, OrderedMap.find?_insert, if_pos rfl]
      exact congrArg (fun value => some (Option.getD value server.nextObject)) before
  have untouched : (server.allocate address).serverList = server.serverList := rfl
  unfold createSocket
  simp only [untouched]
  split
  · exact registered _ _ rfl ⟨_, rfl⟩
  · rename_i unspecified
    have specified : config.gameServerSpecifiesId = false := Bool.eq_false_iff.mpr unspecified
    obtain ⟨entry, listed, inner⟩ := held.listed specified connection member
    have valid := CServerList.setServerSocketByAddress_known config server.serverList
      uninitialised address server.nextObject held.valid ⟨entry, listed, inner.trans same⟩
    have closed := foldl_closeSocket
      (server.serverList.setServerSocketByAddress config uninitialised address
        server.nextObject).dropped (server.allocate address) _ _ rfl (by
        intro object dropped
        obtain ⟨holder, inTable, points⟩ := CServerList.setServerSocketByAddress_dropped
          config server.serverList uninitialised address server.nextObject object dropped
        obtain ⟨owner, inList, own, _⟩ := held.bound holder inTable
        rw [own, Option.some.injEq] at points
        rw [← points]
        exact ne_of_lt (held.fresh owner inList))
    rw [if_pos valid]
    exact registered _ _ closed.1 closed.2

theorem Held.accept_truthful {config : WorldConfig} {server : CServer}
    (held : server.Held config) (address : InAddr) (uninitialised : WorldServer)
    (truthful : (server.createSocket config address uninitialised).Truthful) :
    server.Undisturbed config (.accept address uninitialised) := by
  have absent : ¬ server.FromOpen address := by
    intro present
    obtain ⟨latest, first, differs, found⟩ :=
      held.accept_again address uninitialised present
    have reported := (truthful.found address first found).2
    rw [latest, Option.some.injEq] at reported
    exact differs reported.symm
  constructor
  · exact absent
  · intro exhausted
    obtain ⟨unspecified, allowed, last⟩ := exhausted
    have invalid : ¬ server.serverList.getFreeServerId.isValid = true := fun valid =>
      server.serverList.getFreeServerId_valid_iff.mp valid last
    have wrapped := createSocket_unknown config server address uninitialised held.fresh
      (held.unknown address absent)
    rw [if_neg (Bool.eq_false_iff.mp unspecified), if_pos allowed] at wrapped
    simp only [if_neg invalid] at wrapped
    rw [wrapped] at truthful
    have missing : server.serverList.find? server.serverList.getFreeServerId = none := by
      cases found : server.serverList.find? server.serverList.getFreeServerId with
      | none => rfl
      | some other =>
          exact absurd (held.valid _ (OrderedMap.mem_of_find? _ _ _ found)) invalid
    obtain ⟨connection, member, same, _⟩ := truthful.bound _
      (OrderedMap.new_mem_insert _ _ _ missing) server.nextObject rfl
    have older := held.fresh connection member
    rw [same] at older
    exact absurd older (lt_irrefl _)

/-- After an open connection is closed the map still leads to it. -/
theorem Held.close_truthful {config : WorldConfig} {server : CServer}
    (held : server.Held config) (object : Nat)
    (truthful : (server.closeSocket object).Truthful) : ¬ server.IsOpen object := by
  intro isOpen
  obtain ⟨connection, member, same, handleOpen⟩ := isOpen
  have present : (server.connections.any fun connection =>
      connection.object == object && connection.handleOpen) = true := by
    apply List.any_eq_true.mpr
    exact ⟨connection, member, by rw [handleOpen, Bool.and_true, beq_iff_eq.mpr same]⟩
  unfold closeSocket at truthful
  rw [if_pos present] at truthful
  have mapped := held.mapped connection member
  obtain ⟨other, otherMember, otherAddr, otherOpen⟩ :=
    (truthful.found connection.addr connection.object mapped).1
  obtain ⟨source, sourceMember, changed⟩ := List.mem_map.mp otherMember
  by_cases closed : source.object = object
  · rw [if_pos closed] at changed
    rw [← changed] at otherOpen
    cases otherOpen
  · rw [if_neg closed] at changed
    have sameAddr : source.addr = connection.addr := by
      rw [changed]
      exact otherAddr
    have sourceMapped := held.mapped source sourceMember
    rw [sameAddr, mapped, Option.some.injEq, same] at sourceMapped
    exact closed sourceMapped.symm

theorem Held.step_truthful {config : WorldConfig} {server next : CServer}
    (held : server.Held config) (event : ServerEvent)
    (stepped : CServer.step config server event = some next) (truthful : next.Truthful) :
    server.Undisturbed config event := by
  cases event with
  | accept address uninitialised =>
      cases stepped
      exact held.accept_truthful address uninitialised truthful
  | closeSocket object =>
      unfold CServer.step at stepped
      simp only at stepped
      split at stepped
      · cases stepped
        exact held.close_truthful object truthful
      · contradiction

/-- The lookups and the table are right in every state of a run exactly when
nothing disturbs them in it. -/
theorem truthful_throughout_iff (config : WorldConfig) (events : List ServerEvent) :
    (machine config).Throughout Truthful start events ↔
      (machine config).Guarded (Undisturbed config) start events :=
  (machine config).throughout_iff_guarded (Held config) Truthful (Undisturbed config)
    (fun _ event _ held undisturbed stepped => held.step event undisturbed stepped)
    (fun _ held => held.truthful)
    (fun _ event _ held stepped truthful => held.step_truthful event stepped truthful)
    events start (start_held config)

/-- A game server that names its own id connects and goes away: its address
still counts as connected. -/
theorem closed_server_found :
    ¬ ∀ (config : WorldConfig) (events : List ServerEvent),
      (machine config).Throughout Truthful start events := by
  intro claimed
  have run := claimed ⟨true, false, 2104⟩
    [.accept ⟨10, 0, 0, 7⟩ WorldServer.cleared, .closeSocket 0]
  have final : Truthful _ := (run.2 _ rfl).2 _ rfl
  obtain ⟨connection, member, _, isOpen⟩ := final.status ⟨10, 0, 0, 7⟩ rfl
  rw [List.mem_singleton.mp member] at isOpen
  contradiction

end CServer

end AuthServer
