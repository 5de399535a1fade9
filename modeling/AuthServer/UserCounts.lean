/-
How the world servers are asked for their user counts.

`RequestUserCounts` goes through the table of world servers and sends to the connection that
`server->FindSocket` has for an entry's address.  Connections are reference counted objects:
one that nobody holds any more is deleted, but its pointer stays in the map.  The send queues
are those of the objects by their numbers; a closed connection keeps its queue until then.
-/

import AuthServer.Senders
import AuthServer.ServerIds
import AuthServer.WorldServers

set_option autoImplicit false

namespace AuthServer

open LinearMemory

def sqServerNum : Int32 := 2

namespace CServer

open CServerList

structure Recycled where
  object : Nat
  cells : Nat → UInt8

def userCountRequest (buffer : Recycled) : SendInput :=
  ⟨buffer.object, buffer.cells, ['c'], [.int sqServerNum]⟩

def target (server : CServer) (entry : ServerId × WorldServer) : Option Nat :=
  server.findSocket entry.2.innerAddr

/-! ### The connections and where they are from -/

def keys (server : CServer) : List (InAddr × Nat) :=
  server.connections.map fun connection => (connection.addr, connection.object)

theorem mem_keys (server : CServer) (address : InAddr) (object : Nat) :
    (address, object) ∈ server.keys ↔
      ∃ connection ∈ server.connections,
        connection.addr = address ∧ connection.object = object := by
  constructor
  · intro member
    obtain ⟨connection, present, same⟩ := List.mem_map.mp member
    obtain ⟨own, number⟩ := Prod.mk.inj same
    exact ⟨connection, present, own, number⟩
  · rintro ⟨connection, present, own, number⟩
    exact List.mem_map.mpr ⟨connection, present, by rw [own, number]⟩

theorem keys_closeSocket (server : CServer) (object : Nat) :
    (server.closeSocket object).keys = server.keys := by
  unfold closeSocket onClose
  dsimp only
  split
  · unfold keys
    rw [List.map_map]
    apply List.map_congr_left
    intro connection _
    change ((if connection.object = object then _ else connection).addr,
      (if connection.object = object then _ else connection).object) = _
    split <;> rfl
  · rfl

theorem closeSocket_others (server : CServer) (object : Nat) :
    (server.closeSocket object).socketmap = server.socketmap ∧
    (server.closeSocket object).serverList = server.serverList ∧
    (server.closeSocket object).nextObject = server.nextObject := by
  unfold closeSocket onClose
  dsimp only
  split
  · exact ⟨rfl, rfl, rfl⟩
  · exact ⟨rfl, rfl, rfl⟩

theorem closeSockets (objects : List Nat) (server : CServer) :
    (objects.foldl closeSocket server).keys = server.keys ∧
    (objects.foldl closeSocket server).socketmap = server.socketmap ∧
    (objects.foldl closeSocket server).nextObject = server.nextObject := by
  induction objects generalizing server with
  | nil => exact ⟨rfl, rfl, rfl⟩
  | cons object rest ih =>
      obtain ⟨sameKeys, sameMap, sameNext⟩ := ih (server.closeSocket object)
      obtain ⟨map, _, next⟩ := server.closeSocket_others object
      rw [List.foldl_cons]
      exact ⟨sameKeys.trans (server.keys_closeSocket object), sameMap.trans map,
        sameNext.trans next⟩

theorem keys_register (server : CServer) (address : InAddr) (object : Nat) (id : ServerId) :
    (server.register address object id).keys = server.keys := by
  unfold register keys
  rw [List.map_map]
  apply List.map_congr_left
  intro connection _
  change ((if connection.object = object then _ else connection).addr,
    (if connection.object = object then _ else connection).object) = _
  split <;> rfl

theorem keys_delete (server : CServer) (object : Nat) :
    (server.delete object).keys = server.keys.filter fun key => key.2 != object := by
  unfold delete keys
  rw [List.filter_map]
  rfl

/-! ### What an accept does to the table -/

theorem setServerSocketByAddress_valid_iff (config : WorldConfig) (servers : CServerList)
    (uninitialised : WorldServer) (address : InAddr) (socket : Nat) :
    (setServerSocketByAddress config servers uninitialised address socket).id.isValid = true ↔
      (∃ id server, servers.find? id = some server ∧ server.innerAddr = address ∧
        id.isValid = true) ∨
      config.allowUnknownServers = true ∧ (getFreeServerId servers).isValid = true := by
  rw [← bindEntries_valid_iff address socket servers]
  unfold setServerSocketByAddress
  dsimp only
  rw [bindEntries_free]
  cases bound : (bindEntries servers address socket).id.isValid with
  | true => simp [bound]
  | false => cases allowed : config.allowUnknownServers <;> simp [bound]

/-- The table has one entry for each address, and none of the wrapped id before all ids are
used up. -/
structure OnePerAddress (servers : CServerList) : Prop where
  apart : ∀ id other server holder, servers.find? id = some server →
    servers.find? other = some holder → server.innerAddr = holder.innerAddr → id = other
  wrapped : servers.find? ServerId.invalid ≠ none → servers.find? ⟨255⟩ ≠ none

theorem rebound_innerAddr (address : InAddr) (socket : Nat) (server : WorldServer) :
    (rebound address socket server).innerAddr = server.innerAddr := by
  unfold rebound
  split
  · rfl
  · rfl

theorem find?_rebound {servers changed : CServerList} {address : InAddr} {socket : Nat}
    {id : ServerId} {server : WorldServer}
    (looped : changed.find? id = (servers.find? id).map (rebound address socket))
    (found : changed.find? id = some server) :
    ∃ before, servers.find? id = some before ∧ before.innerAddr = server.innerAddr := by
  rw [looped] at found
  obtain ⟨before, was, same⟩ := Option.map_eq_some_iff.mp found
  exact ⟨before, was, by rw [← same, rebound_innerAddr]⟩

section Accept

variable {config : WorldConfig} {servers : CServerList} {address : InAddr}
variable (uninitialised : WorldServer) (socket : Nat)

theorem OnePerAddress.kept (one : OnePerAddress servers)
    (keeps : ¬ OpensEntry config servers address) :
    OnePerAddress
      (setServerSocketByAddress config servers uninitialised address socket).servers := by
  have looped := setServerSocketByAddress_kept config servers uninitialised address socket keeps
  constructor
  · intro id other server holder found held same
    obtain ⟨before, was, own⟩ := find?_rebound (looped id) found
    obtain ⟨former, had, its⟩ := find?_rebound (looped other) held
    exact one.apart id other before former was had (own.trans (same.trans its.symm))
  · rw [looped, looped, Option.map_eq_none_iff.ne, Option.map_eq_none_iff.ne]
    exact one.wrapped

theorem OnePerAddress.unmatched (one : OnePerAddress servers)
    (opens : OpensEntry config servers address) (id : ServerId) (server : WorldServer)
    (found : servers.find? id = some server) : server.innerAddr ≠ address := by
  intro same
  have isInvalid := ServerId.eq_invalid (opens.2.1 id server found same)
  have present : servers.find? ServerId.invalid ≠ none := by
    rw [← isInvalid, found]
    exact Option.some_ne_none server
  have free := getFreeServerId_invalid servers (one.wrapped present)
  exact present (free ▸ opens.2.2)

theorem OnePerAddress.opened (one : OnePerAddress servers)
    (opens : OpensEntry config servers address) :
    OnePerAddress
      (setServerSocketByAddress config servers uninitialised address socket).servers := by
  have looped :=
    (setServerSocketByAddress_opened config servers uninitialised address socket opens).2
  have before : ∀ id server, id ≠ getFreeServerId servers →
      (setServerSocketByAddress config servers uninitialised address socket).servers.find? id =
        some server →
      ∃ old, servers.find? id = some old ∧ old.innerAddr = server.innerAddr := by
    intro id server differs found
    have kept := looped id
    rw [if_neg differs] at kept
    exact find?_rebound kept found
  have fresh : ∀ server,
      (setServerSocketByAddress config servers uninitialised address socket).servers.find?
        (getFreeServerId servers) = some server → server.innerAddr = address := by
    intro server found
    rw [looped, if_pos rfl, Option.some.injEq] at found
    rw [← found]
    rfl
  constructor
  · intro id other server holder found held same
    by_cases isNew : id = getFreeServerId servers
    · by_cases alsoNew : other = getFreeServerId servers
      · exact isNew.trans alsoNew.symm
      · obtain ⟨old, was, own⟩ := before other holder alsoNew held
        rw [isNew] at found
        exact absurd (own.trans (same.symm.trans (fresh server found)))
          (one.unmatched opens other old was)
    · obtain ⟨old, was, own⟩ := before id server isNew found
      by_cases alsoNew : other = getFreeServerId servers
      · rw [alsoNew] at held
        exact absurd (own.trans (same.trans (fresh holder held))) (one.unmatched opens id old was)
      · obtain ⟨former, had, its⟩ := before other holder alsoNew held
        exact one.apart id other old former was had (own.trans (same.trans its.symm))
  · intro present
    have top : servers.find? ⟨255⟩ ≠ none := by
      by_cases isNew : ServerId.invalid = getFreeServerId servers
      · have notValid : ¬ (getFreeServerId servers).isValid = true := by
          rw [← isNew]
          decide
        exact (lastKey_top_iff servers).mp
          (not_not.mp fun other => notValid ((getFreeServerId_valid_iff servers).mpr other))
      · rw [looped, if_neg isNew, Option.map_eq_none_iff.ne] at present
        exact one.wrapped present
    rw [looped]
    split
    · exact Option.some_ne_none _
    · rw [Option.map_eq_none_iff.ne]
      exact top

theorem OnePerAddress.bound (one : OnePerAddress servers) :
    OnePerAddress
      (setServerSocketByAddress config servers uninitialised address socket).servers := by
  by_cases opens : OpensEntry config servers address
  · exact one.opened uninitialised socket opens
  · exact one.kept uninitialised socket opens

theorem entry_stays (config : WorldConfig) (address : InAddr) (id : ServerId)
    (server : WorldServer) (found : servers.find? id = some server) :
    ∃ after, (setServerSocketByAddress config servers uninitialised address
      socket).servers.find? id = some after ∧ after.innerAddr = server.innerAddr := by
  have stays : ∀ changed : Option WorldServer,
      changed = (servers.find? id).map (rebound address socket) →
      ∃ after, changed = some after ∧ after.innerAddr = server.innerAddr := by
    intro changed same
    rw [found, Option.map_some] at same
    exact ⟨_, same, rebound_innerAddr address socket server⟩
  by_cases opens : OpensEntry config servers address
  · have looped :=
      (setServerSocketByAddress_opened config servers uninitialised address socket opens).2 id
    have differs : id ≠ getFreeServerId servers := by
      intro same
      have free := opens.2.2
      rw [← same, found] at free
      cases free
    rw [if_neg differs] at looped
    exact stays _ looped
  · exact stays _
      (setServerSocketByAddress_kept config servers uninitialised address socket opens id)

/-- A connection that gets a valid id has an entry of its address under a valid id. -/
theorem entry_of_valid
    (valid : (setServerSocketByAddress config servers uninitialised address
      socket).id.isValid = true) :
    ∃ id server, (setServerSocketByAddress config servers uninitialised address
      socket).servers.find? id = some server ∧ server.innerAddr = address := by
  by_cases opens : OpensEntry config servers address
  · have looped := (setServerSocketByAddress_opened config servers uninitialised address socket
      opens).2 (getFreeServerId servers)
    rw [if_pos rfl] at looped
    exact ⟨_, _, looped, rfl⟩
  · rcases (setServerSocketByAddress_valid_iff config servers uninitialised address
      socket).mp valid with ⟨id, server, found, same, _⟩ | ⟨allowed, freeValid⟩
    · obtain ⟨after, stays, own⟩ := entry_stays uninitialised socket config address id
        server found
      exact ⟨id, after, stays, own.trans same⟩
    · -- Some entry of the address stands in the way of a new one.
      have matched : ∃ id server, servers.find? id = some server ∧ server.innerAddr = address := by
        by_contra none
        refine opens ⟨allowed, fun id server found same => ?_,
          getFreeServerId_missing servers freeValid⟩
        exact absurd ⟨id, server, found, same⟩ none
      obtain ⟨id, server, found, same⟩ := matched
      obtain ⟨after, stays, own⟩ := entry_stays uninitialised socket config address id
        server found
      exact ⟨id, after, stays, own.trans same⟩

end Accept

/-! ### Which connection the map leads to -/

/-- The connection is the first one that was registered from its address. -/
def IsFirst (server : CServer) (connection : WorldConnection) : Prop :=
  ∀ other ∈ server.connections, other.addr = connection.addr → connection.object ≤ other.object

/-- The map has for every address the first connection from there, and the table an entry. -/
structure Traced (config : WorldConfig) (server : CServer) : Prop where
  fresh : ∀ key ∈ server.keys, key.2 < server.nextObject
  single : ∀ address other object, (address, object) ∈ server.keys →
    (other, object) ∈ server.keys → address = other
  found : ∀ address object, server.findSocket address = some object →
    (address, object) ∈ server.keys
  mapped : ∀ address object, (address, object) ∈ server.keys →
    ∃ first, server.findSocket address = some first ∧ first ≤ object
  listed : config.gameServerSpecifiesId = false → ∀ key ∈ server.keys,
    ∃ id entry, server.serverList.find? id = some entry ∧ entry.innerAddr = key.1
  empty : ¬ (config.gameServerSpecifiesId = false ∧ config.allowUnknownServers = true) →
    ∀ id, server.serverList.find? id = none
  one : OnePerAddress server.serverList

theorem start_traced (config : WorldConfig) : start.Traced config where
  fresh := List.forall_mem_nil _
  single _ _ _ impossible := absurd impossible List.not_mem_nil
  found _ _ impossible := by cases impossible
  mapped _ _ impossible := absurd impossible List.not_mem_nil
  listed _ := List.forall_mem_nil _
  empty _ _ := rfl
  one := ⟨fun _ _ _ _ impossible _ _ => (by cases impossible), fun present => absurd rfl present⟩

/-- Whether the address has an entry is all that matters of the table. -/
structure TableAfter (config : WorldConfig) (before after : CServerList) : Prop where
  stays : ∀ id server, before.find? id = some server →
    ∃ later, after.find? id = some later ∧ later.innerAddr = server.innerAddr
  empty : ¬ (config.gameServerSpecifiesId = false ∧ config.allowUnknownServers = true) →
    (∀ id, before.find? id = none) → ∀ id, after.find? id = none
  one : OnePerAddress before → OnePerAddress after

theorem TableAfter.refl (config : WorldConfig) (servers : CServerList) :
    TableAfter config servers servers :=
  ⟨fun _ server found => ⟨server, found, rfl⟩, fun _ empty => empty, id⟩

theorem TableAfter.bound (config : WorldConfig) (servers : CServerList)
    (uninitialised : WorldServer) (address : InAddr) (socket : Nat)
    (unspecified : config.gameServerSpecifiesId = false) :
    TableAfter config servers
      (setServerSocketByAddress config servers uninitialised address socket).servers := by
  refine ⟨entry_stays uninitialised socket config address, ?_,
    fun one => one.bound uninitialised socket⟩
  intro closed empty id
  have keeps : ¬ OpensEntry config servers address := fun opens =>
    closed ⟨unspecified, opens.1⟩
  rw [setServerSocketByAddress_kept config servers uninitialised address socket keeps, empty]
  rfl

/-- The same connections and the same map, under another table and a later number. -/
theorem Traced.table {config : WorldConfig} {server after : CServer}
    (traced : server.Traced config) (sameKeys : after.keys = server.keys)
    (sameMap : after.socketmap = server.socketmap) (later : server.nextObject ≤ after.nextObject)
    (changed : TableAfter config server.serverList after.serverList) : after.Traced config where
  fresh key member := Nat.lt_of_lt_of_le (traced.fresh key (sameKeys ▸ member)) later
  single address other object := by
    rw [sameKeys]
    exact traced.single address other object
  found address object := by
    rw [sameKeys, findSocket, sameMap]
    exact traced.found address object
  mapped address object := by
    rw [sameKeys, findSocket, sameMap]
    exact traced.mapped address object
  listed unspecified key member := by
    obtain ⟨id, entry, found, own⟩ := traced.listed unspecified key (sameKeys ▸ member)
    obtain ⟨after, stays, same⟩ := changed.stays id entry found
    exact ⟨id, after, stays, same.trans own⟩
  empty closed := changed.empty closed (traced.empty closed)
  one := changed.one traced.one

theorem Traced.registered {config : WorldConfig} {server after : CServer}
    (traced : server.Traced config) (address : InAddr)
    (newKeys : after.keys = (address, server.nextObject) :: server.keys)
    (newMap : after.socketmap = server.socketmap.insert address.sAddr server.nextObject)
    (later : server.nextObject < after.nextObject)
    (changed : TableAfter config server.serverList after.serverList)
    (entered : config.gameServerSpecifiesId = false →
      ∃ id entry, after.serverList.find? id = some entry ∧ entry.innerAddr = address) :
    after.Traced config := by
  have found : ∀ other, after.findSocket other =
      if other = address then some ((server.findSocket address).getD server.nextObject)
      else server.findSocket other := by
    intro other
    unfold findSocket
    rw [newMap, OrderedMap.find?_insert]
    by_cases same : other = address
    · rw [if_pos same, if_pos (congrArg InAddr.sAddr same)]
    · rw [if_neg same, if_neg fun key => same (InAddr.sAddr_injective _ _ key)]
  have isNew : ∀ other, (other, server.nextObject) ∉ server.keys := fun other member =>
    Nat.lt_irrefl _ (traced.fresh _ member)
  constructor
  · intro key member
    rw [newKeys] at member
    rcases List.mem_cons.mp member with same | old
    · rw [same]
      exact later
    · exact Nat.lt_trans (traced.fresh key old) later
  · intro first other object member also
    rw [newKeys] at member also
    rcases List.mem_cons.mp member with same | old
    · obtain ⟨own, number⟩ := Prod.mk.inj same
      rcases List.mem_cons.mp also with alsoSame | alsoOld
      · exact own.trans (Prod.mk.inj alsoSame).1.symm
      · rw [number] at alsoOld
        exact absurd alsoOld (isNew other)
    · rcases List.mem_cons.mp also with alsoSame | alsoOld
      · rw [(Prod.mk.inj alsoSame).2] at old
        exact absurd old (isNew first)
      · exact traced.single first other object old alsoOld
  · intro other object leads
    rw [newKeys]
    rw [found] at leads
    by_cases same : other = address
    · rw [if_pos same, Option.some.injEq] at leads
      cases before : server.findSocket address with
      | none =>
          rw [before] at leads
          rw [same, ← leads]
          exact List.mem_cons_self
      | some first =>
          rw [before] at leads
          rw [same, ← leads]
          exact List.mem_cons_of_mem _ (traced.found address first before)
    · rw [if_neg same] at leads
      exact List.mem_cons_of_mem _ (traced.found other object leads)
  · intro other object member
    rw [newKeys] at member
    rw [found]
    rcases List.mem_cons.mp member with isHead | old
    · obtain ⟨own, number⟩ := Prod.mk.inj isHead
      rw [if_pos own, number]
      cases before : server.findSocket address with
      | none => exact ⟨_, rfl, Nat.le_refl _⟩
      | some first =>
          exact ⟨first, rfl, Nat.le_of_lt (traced.fresh _ (traced.found address first before))⟩
    · obtain ⟨first, leads, below⟩ := traced.mapped other object old
      by_cases same : other = address
      · rw [same] at leads
        rw [if_pos same, leads]
        exact ⟨first, rfl, below⟩
      · rw [if_neg same]
        exact ⟨first, leads, below⟩
  · intro unspecified key member
    rw [newKeys] at member
    rcases List.mem_cons.mp member with isHead | old
    · rw [isHead]
      exact entered unspecified
    · obtain ⟨id, entry, was, own⟩ := traced.listed unspecified key old
      obtain ⟨later, stays, same⟩ := changed.stays id entry was
      exact ⟨id, later, stays, same.trans own⟩
  · exact fun closed => changed.empty closed (traced.empty closed)
  · exact changed.one traced.one

theorem Traced.createSocket {config : WorldConfig} {server : CServer}
    (traced : server.Traced config) (address : InAddr) (uninitialised : WorldServer) :
    (server.createSocket config address uninitialised).Traced config := by
  unfold CServer.createSocket
  dsimp only
  split
  · rename_i specified
    apply traced.registered address
    · exact keys_register _ _ _ _
    · rfl
    · exact Nat.lt_succ_self _
    · exact TableAfter.refl config server.serverList
    · intro unspecified
      rw [specified] at unspecified
      cases unspecified
  · rename_i given
    have unspecified : config.gameServerSpecifiesId = false := Bool.eq_false_iff.mpr given
    obtain ⟨sameKeys, sameMap, sameNext⟩ := closeSockets
      (setServerSocketByAddress config server.serverList uninitialised address
        server.nextObject).dropped (server.allocate address)
    have changed := TableAfter.bound config server.serverList uninitialised address
      server.nextObject unspecified
    split
    · rename_i valid
      apply traced.registered address
      · rw [keys_register]
        exact sameKeys
      · exact congrArg (fun map => OrderedMap.insert map address.sAddr server.nextObject) sameMap
      · exact Nat.lt_of_lt_of_eq (Nat.lt_succ_self _) sameNext.symm
      · exact changed
      · exact fun _ => entry_of_valid uninitialised server.nextObject valid
    · apply traced.table
      · -- The new connection is the only one that goes.
        rw [keys_delete]
        refine (congrArg (List.filter _) sameKeys).trans ?_
        change ((address, server.nextObject) :: server.keys).filter _ = _
        rw [List.filter_cons_of_neg (by rw [bne_self_eq_false]; exact Bool.false_ne_true)]
        exact List.filter_eq_self.mpr fun key member =>
          bne_iff_ne.mpr (Nat.ne_of_lt (traced.fresh key member))
      · exact sameMap
      · exact Nat.le_trans (Nat.le_succ _) (Nat.le_of_eq sameNext.symm)
      · exact changed

theorem Traced.closeSocket {config : WorldConfig} {server : CServer}
    (traced : server.Traced config) (object : Nat) :
    (server.closeSocket object).Traced config := by
  obtain ⟨sameMap, sameList, sameNext⟩ := server.closeSocket_others object
  refine traced.table (server.keys_closeSocket object) sameMap (Nat.le_of_eq sameNext.symm) ?_
  rw [sameList]
  exact TableAfter.refl config server.serverList

def asked (server : CServer) : List Nat := server.serverList.entries.filterMap server.target

theorem Traced.found_iff {config : WorldConfig} {server : CServer}
    (traced : server.Traced config) (address : InAddr) (object : Nat) :
    server.findSocket address = some object ↔
      ∃ connection ∈ server.connections, connection.addr = address ∧
        connection.object = object ∧ server.IsFirst connection := by
  constructor
  · intro leads
    obtain ⟨connection, member, own, number⟩ :=
      (server.mem_keys address object).mp (traced.found address object leads)
    refine ⟨connection, member, own, number, fun other present same => ?_⟩
    obtain ⟨first, alsoLeads, below⟩ := traced.mapped address other.object
      ((server.mem_keys address other.object).mpr ⟨other, present, same.trans own, rfl⟩)
    rw [leads, Option.some.injEq] at alsoLeads
    rw [number, alsoLeads]
    exact below
  · rintro ⟨connection, member, own, number, isFirst⟩
    obtain ⟨first, leads, below⟩ := traced.mapped address object
      ((server.mem_keys address object).mpr ⟨connection, member, own, number⟩)
    obtain ⟨other, present, itsOwn, itsNumber⟩ :=
      (server.mem_keys address first).mp (traced.found address first leads)
    have above := isFirst other present (itsOwn.trans own.symm)
    rw [number, itsNumber] at above
    rw [leads, Nat.le_antisymm below above]

theorem Traced.mem_asked {config : WorldConfig} {server : CServer}
    (traced : server.Traced config) (object : Nat) :
    object ∈ server.asked ↔
      config.gameServerSpecifiesId = false ∧ config.allowUnknownServers = true ∧
        ∃ connection ∈ server.connections,
          connection.object = object ∧ server.IsFirst connection := by
  constructor
  · intro member
    obtain ⟨entry, listed, leads⟩ := List.mem_filterMap.mp member
    obtain ⟨connection, present, _, number, isFirst⟩ :=
      (traced.found_iff entry.2.innerAddr object).mp leads
    have filled : config.gameServerSpecifiesId = false ∧ config.allowUnknownServers = true := by
      by_contra closed
      have absent := traced.empty closed entry.1
      rw [server.serverList.find?_of_mem entry.1 entry.2 listed] at absent
      cases absent
    exact ⟨filled.1, filled.2, connection, present, number, isFirst⟩
  · rintro ⟨unspecified, _, connection, present, number, isFirst⟩
    obtain ⟨id, entry, found, own⟩ := traced.listed unspecified (connection.addr, object)
      ((server.mem_keys _ _).mpr ⟨connection, present, rfl, number⟩)
    refine List.mem_filterMap.mpr
      ⟨(id, entry), server.serverList.mem_of_find? id entry found, ?_⟩
    rw [target, own]
    exact (traced.found_iff _ _).mpr ⟨connection, present, rfl, number, isFirst⟩

/-- Different entries have different addresses, and these different connections. -/
theorem Traced.asked_nodup {config : WorldConfig} {server : CServer}
    (traced : server.Traced config) : server.asked.Nodup := by
  unfold asked List.Nodup
  rw [List.pairwise_filterMap]
  refine server.serverList.ascending.imp_of_mem fun {first second} member also below => ?_
  intro object leads other alsoLeads same
  rw [← same] at alsoLeads
  have address := traced.single _ _ object (traced.found _ _ leads) (traced.found _ _ alsoLeads)
  have key := traced.one.apart first.1 second.1 first.2 second.2
    (server.serverList.find?_of_mem _ _ member) (server.serverList.find?_of_mem _ _ also) address
  rw [key] at below
  exact absurd below (lt_irrefl _)

/-! ### What a pass sends -/

theorem sendSocket_request (outgoing : Outgoing) (buffer : Recycled) :
    ∃ after, sendSocket (some outgoing) (userCountRequest buffer) = some (true, some after) ∧
      after.output.bytes = outgoing.output.bytes ++ [3, 0, 2] := by
  have assembled : (userCountRequest buffer).assembled =
      some (store buffer.cells 2 [2], 1) := rfl
  obtain ⟨after, sent, bytes⟩ := sendFrame_filled outgoing (userCountRequest buffer) _
    packetSizeType 1 assembled Nat.one_ne_zero (by decide)
  refine ⟨after, ?_, ?_⟩
  · unfold sendSocket
    dsimp only
    rw [sent]
    rfl
  · have body : slice (store buffer.cells 2 [2]) 2 1 = [2] := slice_store_same buffer.cells 2 [2]
    rw [bytes, body]
    rfl

end CServer

/-- The connections and how many references are held to the object of each; one with none has
been deleted. -/
structure WorldObjects where
  server : CServer
  refcount : Nat → Nat

/-- References are also taken and given back by reads, writes and posted packets. -/
inductive ObjectEvent where
  | accept (address : InAddr) (uninitialised : WorldServer)
  | closeSocket (object : Nat)
  | addRef (object : Nat)
  | releaseRef (object : Nat)

namespace WorldObjects

open CServerList

def start : WorldObjects := ⟨CServer.start, fun _ => 0⟩

def counted (objects : WorldObjects) (object count : Nat) : WorldObjects :=
  { objects with
    refcount := fun other => if other = object then count else objects.refcount other }

def addRef (objects : WorldObjects) (object : Nat) : Option WorldObjects :=
  if objects.refcount object = 0 then none
  else some (objects.counted object (objects.refcount object + 1))

def releaseRef (objects : WorldObjects) (object : Nat) : Option WorldObjects :=
  if objects.refcount object = 0 then none
  else some (objects.counted object (objects.refcount object - 1))

/-- `CIOSocket::CloseSocket`; with an open handle goes the reference that the object was made
with. -/
def closeSocket (objects : WorldObjects) (object : Nat) : Option WorldObjects :=
  if objects.refcount object = 0 then none
  else if objects.server.connections.any fun connection =>
      connection.object == object && connection.handleOpen then
    { objects with server := objects.server.closeSocket object }.releaseRef object
  else some objects

def createSocket (config : WorldConfig) (objects : WorldObjects) (address : InAddr)
    (uninitialised : WorldServer) : Option WorldObjects :=
  let mysocket := objects.server.nextObject
  let objects := { objects with server := objects.server.allocate address }.counted mysocket 1
  if config.gameServerSpecifiesId then
    some { objects with server := objects.server.register address mysocket ServerId.invalid }
  else
    let binding := objects.server.serverList.setServerSocketByAddress config uninitialised
      address mysocket
    (binding.dropped.foldlM closeSocket objects).map fun objects =>
      let server := { objects.server with serverList := binding.servers }
      if binding.id.isValid then
        { objects with server := server.register address mysocket binding.id }
      else { objects with server := server.delete mysocket }.counted mysocket 0

/-- A use of a deleted object is undefined. -/
def step (config : WorldConfig) (objects : WorldObjects) : ObjectEvent → Option WorldObjects
  | .accept address uninitialised => objects.createSocket config address uninitialised
  | .closeSocket object => objects.closeSocket object
  | .addRef object => objects.addRef object
  | .releaseRef object => objects.releaseRef object

def machine (config : WorldConfig) : EventRuns.Machine WorldObjects ObjectEvent := ⟨step config⟩

/-- `SendSocket` for one entry; the reference that `FindSocket` takes is given back at its end. -/
def requestUserCount (objects : WorldObjects) (outgoing : Nat → Outgoing)
    (buffer : CServer.Recycled) (entry : ServerId × WorldServer) : Option (Nat → Outgoing) :=
  match objects.server.target entry with
  | none => (sendSocket none (CServer.userCountRequest buffer)).map fun _ => outgoing
  | some object =>
      if objects.refcount object = 0 then none
      else (sendSocket (some (outgoing object)) (CServer.userCountRequest buffer)).map fun sent =>
        match sent.2 with
        | none => outgoing
        | some after => fun other => if other = object then after else outgoing other

def requestLoop (objects : WorldObjects) (buffers : Nat → CServer.Recycled) :
    List (ServerId × WorldServer) → Nat → (Nat → Outgoing) → Option (Nat → Outgoing)
  | [], _, outgoing => some outgoing
  | entry :: rest, turn, outgoing =>
      (objects.requestUserCount outgoing (buffers turn) entry).bind
        (requestLoop objects buffers rest (turn + 1))

def requestUserCounts (objects : WorldObjects) (buffers : Nat → CServer.Recycled)
    (outgoing : Nat → Outgoing) : Option (Nat → Outgoing) :=
  objects.requestLoop buffers objects.server.serverList.entries 0 outgoing

/-! ### The connections beside the references -/

theorem addRef_server (objects after : WorldObjects) (object : Nat)
    (taken : objects.addRef object = some after) : after.server = objects.server := by
  unfold addRef at taken
  split at taken
  · cases taken
  · cases taken
    rfl

theorem releaseRef_server (objects after : WorldObjects) (object : Nat)
    (released : objects.releaseRef object = some after) : after.server = objects.server := by
  unfold releaseRef at released
  split at released
  · cases released
  · cases released
    rfl

theorem closeSocket_server (objects after : WorldObjects) (object : Nat)
    (closed : objects.closeSocket object = some after) :
    after.server = objects.server.closeSocket object := by
  unfold closeSocket at closed
  split at closed
  · cases closed
  · split at closed
    · exact releaseRef_server _ after object closed
    · rename_i notOpen
      cases closed
      unfold CServer.closeSocket
      rw [if_neg notOpen]

theorem closeSockets_server (dropped : List Nat) (objects after : WorldObjects)
    (closed : dropped.foldlM closeSocket objects = some after) :
    after.server = dropped.foldl CServer.closeSocket objects.server := by
  induction dropped generalizing objects with
  | nil =>
      cases closed
      rfl
  | cons object dropped ih =>
      obtain ⟨middle, first, others⟩ := Option.bind_eq_some_iff.mp closed
      rw [ih middle others, closeSocket_server objects middle object first]
      rfl

/-- Where an accept is defined, it does to the connections what it does without the count. -/
theorem createSocket_server (config : WorldConfig) (objects after : WorldObjects)
    (address : InAddr) (uninitialised : WorldServer)
    (created : objects.createSocket config address uninitialised = some after) :
    after.server = objects.server.createSocket config address uninitialised := by
  unfold createSocket at created
  unfold CServer.createSocket
  dsimp only at created ⊢
  split at created
  · rename_i specified
    cases created
    rw [if_pos specified]
    rfl
  · rename_i given
    rw [if_neg given]
    obtain ⟨closed, dropped, same⟩ := Option.map_eq_some_iff.mp created
    have server := closeSockets_server _ _ closed dropped
    rw [← same]
    split
    · rename_i valid
      rw [server]
      exact (if_pos valid).symm
    · rename_i invalid
      refine Eq.trans ?_ (if_neg invalid).symm
      change { closed.server with serverList := _ }.delete _ = _
      rw [server]
      rfl

theorem step_traced (config : WorldConfig) (objects next : WorldObjects) (event : ObjectEvent)
    (traced : objects.server.Traced config) (stepped : step config objects event = some next) :
    next.server.Traced config := by
  cases event with
  | accept address uninitialised =>
      rw [createSocket_server config objects next address uninitialised stepped]
      exact traced.createSocket address uninitialised
  | closeSocket object =>
      rw [closeSocket_server objects next object stepped]
      exact traced.closeSocket object
  | addRef object =>
      rw [addRef_server objects next object stepped]
      exact traced
  | releaseRef object =>
      rw [releaseRef_server objects next object stepped]
      exact traced

theorem run_traced (config : WorldConfig) (events : List ObjectEvent) (objects : WorldObjects)
    (ran : (machine config).run start events = some objects) :
    objects.server.Traced config :=
  (machine config).run_invariant (fun objects => objects.server.Traced config)
    (fun objects event next traced stepped => step_traced config objects next event traced stepped)
    events start objects (CServer.start_traced config) ran

/-! ### One pass -/

theorem requestUserCount_found (objects : WorldObjects) (outgoing : Nat → Outgoing)
    (buffer : CServer.Recycled) (entry : ServerId × WorldServer) (object : Nat)
    (leads : objects.server.target entry = some object) (alive : objects.refcount object ≠ 0) :
    ∃ after, objects.requestUserCount outgoing buffer entry = some after ∧
      (after object).output.bytes = (outgoing object).output.bytes ++ [3, 0, 2] ∧
      ∀ other, other ≠ object → after other = outgoing other := by
  obtain ⟨written, sent, bytes⟩ := CServer.sendSocket_request (outgoing object) buffer
  refine ⟨fun other => if other = object then written else outgoing other, ?_, ?_, ?_⟩
  · unfold requestUserCount
    simp only [leads, if_neg alive, sent, Option.map_some]
  · dsimp only
    rw [if_pos rfl]
    exact bytes
  · intro other differs
    exact if_neg differs

theorem requestUserCount_none (objects : WorldObjects) (outgoing : Nat → Outgoing)
    (buffer : CServer.Recycled) (entry : ServerId × WorldServer)
    (absent : objects.server.target entry = none) :
    objects.requestUserCount outgoing buffer entry = some outgoing := by
  unfold requestUserCount
  rw [absent]
  rfl

theorem requestUserCount_alive (objects : WorldObjects) (outgoing after : Nat → Outgoing)
    (buffer : CServer.Recycled) (entry : ServerId × WorldServer) (object : Nat)
    (leads : objects.server.target entry = some object)
    (sent : objects.requestUserCount outgoing buffer entry = some after) :
    objects.refcount object ≠ 0 := by
  intro deleted
  unfold requestUserCount at sent
  simp only [leads, if_pos deleted] at sent
  cases sent

theorem requestLoop_alive (objects : WorldObjects) (buffers : Nat → CServer.Recycled)
    (entries : List (ServerId × WorldServer)) (turn : Nat) (outgoing after : Nat → Outgoing)
    (sent : objects.requestLoop buffers entries turn outgoing = some after) :
    ∀ object ∈ entries.filterMap objects.server.target, objects.refcount object ≠ 0 := by
  induction entries generalizing turn outgoing with
  | nil => exact List.forall_mem_nil _
  | cons entry rest ih =>
      rw [requestLoop] at sent
      obtain ⟨middle, first, others⟩ := Option.bind_eq_some_iff.mp sent
      cases leads : objects.server.target entry with
      | none =>
          rw [List.filterMap_cons_none leads]
          exact ih (turn + 1) middle others
      | some own =>
          rw [List.filterMap_cons_some leads]
          exact List.forall_mem_cons.mpr
            ⟨objects.requestUserCount_alive outgoing middle _ entry own leads first,
              ih (turn + 1) middle others⟩

/-- Connections that the entries lead to at most once get one frame each, and no other does. -/
theorem requestLoop_sends (objects : WorldObjects) (buffers : Nat → CServer.Recycled)
    (entries : List (ServerId × WorldServer)) (turn : Nat) (outgoing : Nat → Outgoing)
    (once : (entries.filterMap objects.server.target).Nodup)
    (alive : ∀ object ∈ entries.filterMap objects.server.target, objects.refcount object ≠ 0) :
    ∃ after, objects.requestLoop buffers entries turn outgoing = some after ∧ ∀ object,
      (object ∈ entries.filterMap objects.server.target →
        (after object).output.bytes = (outgoing object).output.bytes ++ [3, 0, 2]) ∧
      (object ∉ entries.filterMap objects.server.target →
        after object = outgoing object) := by
  induction entries generalizing turn outgoing with
  | nil =>
      exact ⟨outgoing, rfl, fun object =>
        ⟨fun impossible => absurd impossible List.not_mem_nil, fun _ => rfl⟩⟩
  | cons entry rest ih =>
      cases leads : objects.server.target entry with
      | none =>
          rw [List.filterMap_cons_none leads] at once alive ⊢
          rw [requestLoop, objects.requestUserCount_none outgoing _ entry leads]
          exact ih (turn + 1) outgoing once alive
      | some own =>
          rw [List.filterMap_cons_some leads] at once alive ⊢
          obtain ⟨notLater, onceLater⟩ := List.nodup_cons.mp once
          obtain ⟨ownAlive, aliveLater⟩ := List.forall_mem_cons.mp alive
          obtain ⟨middle, sent, bytes, others⟩ :=
            objects.requestUserCount_found outgoing (buffers turn) entry own leads ownAlive
          obtain ⟨after, ran, holds⟩ := ih (turn + 1) middle onceLater aliveLater
          refine ⟨after, by rw [requestLoop, sent]; exact ran, fun object => ⟨?_, ?_⟩⟩
          · intro member
            rcases List.mem_cons.mp member with same | later
            · rw [same, (holds own).2 notLater]
              exact bytes
            · have differs : object ≠ own := fun same => notLater (same ▸ later)
              rw [(holds object).1 later, others object differs]
          · intro absent
            have differs : object ≠ own := fun same => absent (same ▸ List.mem_cons_self)
            rw [(holds object).2 (fun later => absent (List.mem_cons_of_mem own later)),
              others object differs]

/-- The connection is asked in a pass: ids are assigned, unknown servers are let in, and it was
the first from its address. -/
def Asked (config : WorldConfig) (objects : WorldObjects) (connection : WorldConnection) : Prop :=
  config.gameServerSpecifiesId = false ∧ config.allowUnknownServers = true ∧
    objects.server.IsFirst connection

theorem asked_iff {config : WorldConfig} {objects : WorldObjects}
    (traced : objects.server.Traced config) (connection : WorldConnection)
    (member : connection ∈ objects.server.connections) :
    connection.object ∈ objects.server.asked ↔ objects.Asked config connection := by
  rw [traced.mem_asked]
  constructor
  · rintro ⟨unspecified, allowed, other, present, number, isFirst⟩
    refine ⟨unspecified, allowed, fun third its same => ?_⟩
    have address := traced.single other.addr connection.addr connection.object
      ((objects.server.mem_keys _ _).mpr ⟨other, present, rfl, number⟩)
      ((objects.server.mem_keys _ _).mpr ⟨connection, member, rfl, rfl⟩)
    rw [← number]
    exact isFirst third its (same.trans address.symm)
  · rintro ⟨unspecified, allowed, isFirst⟩
    exact ⟨unspecified, allowed, connection, member, rfl, isFirst⟩

/-- After any run a pass is defined exactly if none of the connections asked in it has been
deleted.  It queues the request once on each of them, closed or not, and on no other. -/
theorem requestUserCounts_first (config : WorldConfig) (events : List ObjectEvent)
    (objects : WorldObjects) (ran : (machine config).run start events = some objects)
    (buffers : Nat → CServer.Recycled) (outgoing : Nat → Outgoing) :
    ((objects.requestUserCounts buffers outgoing).isSome ↔
      ∀ connection ∈ objects.server.connections, objects.Asked config connection →
        objects.refcount connection.object ≠ 0) ∧
    ∀ after, objects.requestUserCounts buffers outgoing = some after →
      ∀ connection ∈ objects.server.connections,
        (objects.Asked config connection →
          (after connection.object).output.bytes =
            (outgoing connection.object).output.bytes ++ [3, 0, 2]) ∧
        (¬ objects.Asked config connection →
          after connection.object = outgoing connection.object) := by
  have traced := run_traced config events objects ran
  have sends := objects.requestLoop_sends buffers objects.server.serverList.entries 0 outgoing
    traced.asked_nodup
  constructor
  · constructor
    · intro isDefined connection member isAsked
      obtain ⟨after, sent⟩ := Option.isSome_iff_exists.mp isDefined
      exact objects.requestLoop_alive buffers _ 0 outgoing after sent connection.object
        ((asked_iff traced connection member).mpr isAsked)
    · intro alive
      obtain ⟨after, sent, _⟩ := sends fun object isAsked => by
        obtain ⟨unspecified, allowed, connection, member, number, isFirst⟩ :=
          (traced.mem_asked object).mp isAsked
        rw [← number]
        exact alive connection member ⟨unspecified, allowed, isFirst⟩
      exact Option.isSome_iff_exists.mpr ⟨after, sent⟩
  · intro after sent connection member
    obtain ⟨same, alsoSent, holds⟩ :=
      sends (objects.requestLoop_alive buffers _ 0 outgoing after sent)
    obtain rfl := Option.some.inj (sent.symm.trans alsoSent)
    obtain ⟨isAsked, notAsked⟩ := holds connection.object
    have asked := asked_iff traced connection member
    exact ⟨fun first => isAsked (asked.mpr first), fun other => notAsked (asked.not.mpr other)⟩

def reconnecting : List ObjectEvent :=
  [.accept ⟨10, 0, 0, 7⟩ WorldServer.cleared, .addRef 0,
    .accept ⟨10, 0, 0, 7⟩ WorldServer.cleared]

def reached (events : List ObjectEvent) : WorldObjects :=
  ((machine ⟨false, true, 2104⟩).run start events).getD start

/-- It is asked on the first connection, and once the read has ended nobody can be asked. -/
theorem requestUserCounts_first_reconnected :
    (∃ sent, (reached reconnecting).requestUserCounts (fun _ => ⟨0, fun _ => 0⟩)
        (fun _ => ⟨OutputQueue.empty, []⟩) = some sent ∧
      (sent 0).output.bytes = [3, 0, 2] ∧ sent 1 = ⟨OutputQueue.empty, []⟩) ∧
    (reached (reconnecting ++ [.releaseRef 0])).requestUserCounts (fun _ => ⟨0, fun _ => 0⟩)
      (fun _ => ⟨OutputQueue.empty, []⟩) = none := by
  have known : (reached reconnecting).server.connections =
      [⟨1, ⟨10, 0, 0, 7⟩, ⟨1⟩, true⟩, ⟨0, ⟨10, 0, 0, 7⟩, ⟨1⟩, false⟩] := rfl
  have isFirst : (reached reconnecting).Asked ⟨false, true, 2104⟩
      ⟨0, ⟨10, 0, 0, 7⟩, ⟨1⟩, false⟩ := ⟨rfl, rfl, fun _ _ _ => Nat.zero_le _⟩
  have notFirst : ¬ (reached reconnecting).Asked ⟨false, true, 2104⟩
      ⟨1, ⟨10, 0, 0, 7⟩, ⟨1⟩, true⟩ := by
    intro asked
    have below := asked.2.2 ⟨0, ⟨10, 0, 0, 7⟩, ⟨1⟩, false⟩
      (by rw [known]; exact List.mem_cons_of_mem _ (List.mem_singleton.mpr rfl)) rfl
    exact absurd below (Nat.not_succ_le_zero 0)
  constructor
  · obtain ⟨defined, holds⟩ := requestUserCounts_first ⟨false, true, 2104⟩ reconnecting
      (reached reconnecting) rfl (fun _ => ⟨0, fun _ => 0⟩) (fun _ => ⟨OutputQueue.empty, []⟩)
    have alive : ∀ connection ∈ (reached reconnecting).server.connections,
        (reached reconnecting).Asked ⟨false, true, 2104⟩ connection →
          (reached reconnecting).refcount connection.object ≠ 0 := by
      rw [known]
      exact List.forall_mem_cons.mpr ⟨fun asked => absurd asked notFirst,
        List.forall_mem_singleton.mpr fun _ => Nat.one_ne_zero⟩
    obtain ⟨sent, ran⟩ := Option.isSome_iff_exists.mp (defined.mpr alive)
    have each := holds sent ran
    rw [known] at each
    obtain ⟨second, first⟩ := List.forall_mem_cons.mp each
    exact ⟨sent, ran, (List.forall_mem_singleton.mp first).1 isFirst, second.2 notFirst⟩
  · obtain ⟨defined, _⟩ := requestUserCounts_first ⟨false, true, 2104⟩
      (reconnecting ++ [.releaseRef 0]) (reached (reconnecting ++ [.releaseRef 0])) rfl
      (fun _ => ⟨0, fun _ => 0⟩) (fun _ => ⟨OutputQueue.empty, []⟩)
    apply Option.eq_none_iff_forall_ne_some.mpr
    intro sent ran
    refine defined.mp (Option.isSome_iff_exists.mpr ⟨sent, ran⟩) ⟨0, ⟨10, 0, 0, 7⟩, ⟨1⟩, false⟩
      ?_ isFirst rfl
    exact List.mem_cons_of_mem _ (List.mem_singleton.mpr rfl)

end WorldObjects

end AuthServer
