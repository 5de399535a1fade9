/-
Connections of world servers whose ids come from the table.

Each call of `SetServerSocketByAddress` is made for a connection object of its
own, and the caller deletes the object when the returned id is invalid.
-/

import AuthServer.ServerBindings

set_option autoImplicit false

namespace AuthServer

/-- The table, and how many connections have been created; no entry refers to
one that has not. -/
structure Registering where
  servers : CServerList
  created : Nat
  issued : ∀ id object, CServerList.connectionOf servers id = some object → object < created

structure Arrival where
  address : InAddr
  uninitialised : WorldServer

namespace CServerList

/-- The id that the loop ends with is the one it began with or that of a
matching entry. -/
theorem bindLoop_match (address : InAddr) (socket : Nat)
    (entries : List (ServerId × WorldServer)) (binding : Binding) :
    (entries.foldl (bindEntry address socket) binding).id = binding.id ∨
      ∃ entry ∈ entries, entry.2.innerAddr = address ∧
        entry.1 = (entries.foldl (bindEntry address socket) binding).id := by
  induction entries generalizing binding with
  | nil => exact Or.inl rfl
  | cons entry rest ih =>
      rw [List.foldl_cons]
      rcases ih (bindEntry address socket binding entry) with kept | ⟨other, member, facts⟩
      · rw [kept, bindEntry_id]
        by_cases matching : entry.2.innerAddr.sAddr = address.sAddr
        · rw [if_pos matching]
          exact Or.inr ⟨entry, List.mem_cons_self, InAddr.sAddr_injective _ _ matching, rfl⟩
        · rw [if_neg matching]
          exact Or.inl rfl
      · exact Or.inr ⟨other, List.mem_cons_of_mem entry member, facts⟩

theorem eq_top (id : ServerId) (bound : 255 ≤ id.value.toNat) : id = ⟨255⟩ := by
  have top : id.value.toNat = (255 : UInt8).toNat :=
    Nat.le_antisymm (Nat.le_of_lt_succ id.value.toNat_lt) bound
  cases id
  exact congrArg ServerId.mk (UInt8.toNat_inj.mp top)

theorem lastKey_top_iff (servers : CServerList) :
    servers.lastKey? = some ⟨255⟩ ↔ servers.find? ⟨255⟩ ≠ none := by
  constructor
  · intro last
    obtain ⟨entry, found, isTop⟩ := Option.map_eq_some_iff.mp last
    have present := servers.find?_of_mem entry.1 entry.2 (List.mem_of_getLast? found)
    rw [isTop] at present
    rw [present]
    exact Option.some_ne_none _
  · intro present
    obtain ⟨server, found⟩ := Option.ne_none_iff_exists'.mp present
    have member := servers.mem_of_find? _ server found
    obtain ⟨maxId, last⟩ := servers.exists_lastKey _ member
    have bound := servers.le_lastKey maxId last _ member
    change (255 : UInt8).toNat ≤ maxId.value.toNat at bound
    rw [last, eq_top maxId bound]

theorem getFreeServerId_invalid (servers : CServerList) (present : servers.find? ⟨255⟩ ≠ none) :
    getFreeServerId servers = ServerId.invalid := by
  rw [getFreeServerId_next servers _ ((lastKey_top_iff servers).mpr present)]
  rfl

/-- The id can be given to a new entry. -/
def Usable (servers : CServerList) (id : ServerId) : Prop :=
  id.isValid = true ∧ servers.find? id = none

theorem usable_free_iff (servers : CServerList) :
    Usable servers (getFreeServerId servers) ↔ servers.find? ⟨255⟩ = none := by
  have valid := (getFreeServerId_valid_iff servers).trans (lastKey_top_iff servers).not
  rw [not_ne_iff] at valid
  constructor
  · intro usable
    exact valid.mp usable.1
  · intro absent
    have isValid := valid.mpr absent
    exact ⟨isValid, getFreeServerId_missing servers isValid⟩

def register (config : WorldConfig) (servers : CServerList) (arrival : Arrival) (socket : Nat) :
    Binding :=
  setServerSocketByAddress config servers arrival.uninitialised arrival.address socket

/-- A valid id is that of an entry bound to the connection; with an invalid id,
no entry refers to it. -/
def Settled (binding : Binding) (socket : Nat) : Prop :=
  if binding.id.isValid then connectionOf binding.servers binding.id = some socket
  else ∀ id, connectionOf binding.servers id ≠ some socket

/-- An entry with a valid id has the address, or the next id is valid, or the
entry of the invalid id is there and has another address. -/
def RoomFor (servers : CServerList) (address : InAddr) : Prop :=
  servers.find? ⟨255⟩ = none ∨
    (∃ id server, servers.find? id = some server ∧ server.innerAddr = address ∧
      id.isValid = true) ∨
    ∃ server, servers.find? ServerId.invalid = some server ∧ server.innerAddr ≠ address

section Register

variable (config : WorldConfig) (servers : CServerList) (arrival : Arrival) (socket : Nat)

theorem unbound_iff :
    (bindEntries servers arrival.address socket).id.isValid = false ↔
      ∀ id server, servers.find? id = some server → server.innerAddr = arrival.address →
        id.isValid = false := by
  rw [← Bool.not_eq_true, bindEntries_valid_iff]
  constructor
  · intro none_ id server found same
    apply Bool.eq_false_iff.mpr
    intro valid
    exact none_ ⟨id, server, found, same, valid⟩
  · rintro unmatched ⟨id, server, found, same, valid⟩
    rw [unmatched id server found same] at valid
    cases valid

/-- Without an entry of a valid id for the address, the next id is returned. -/
theorem register_unbound (allowed : config.allowUnknownServers = true)
    (unbound : (bindEntries servers arrival.address socket).id.isValid = false) :
    (register config servers arrival socket).id = getFreeServerId servers := by
  simp only [register, setServerSocketByAddress, allowed, unbound, Bool.not_false, Bool.and_true,
    if_true, bindEntries_free]

theorem register_bound
    (bound : (bindEntries servers arrival.address socket).id.isValid = true) :
    register config servers arrival socket = bindEntries servers arrival.address socket := by
  simp only [register, setServerSocketByAddress, bound, Bool.not_true, Bool.and_false,
    Bool.false_eq_true, if_false]

theorem settled_bound
    (bound : (bindEntries servers arrival.address socket).id.isValid = true) :
    Settled (register config servers arrival socket) socket := by
  rw [Settled, register_bound config servers arrival socket bound, if_pos bound,
    Registry.holds_iff_touched (bindEntries_find? arrival.address socket servers _)]
  rcases bindLoop_match arrival.address socket servers.entries ⟨servers, ServerId.invalid, []⟩
    with unchanged | ⟨entry, member, same, isId⟩
  · rw [bindEntries, unchanged] at bound
    cases bound
  · refine ⟨entry.2, ?_, Or.inl same⟩
    rw [bindEntries, ← isId]
    exact servers.find?_of_mem entry.1 entry.2 member

theorem settled_new (allowed : config.allowUnknownServers = true)
    (unbound : (bindEntries servers arrival.address socket).id.isValid = false)
    (usable : Usable servers (getFreeServerId servers)) :
    Settled (register config servers arrival socket) socket := by
  have table := (setServerSocketByAddress_opened config servers arrival.uninitialised
    arrival.address socket
    ⟨allowed, (unbound_iff servers arrival socket).mp unbound, usable.2⟩).2
  rw [Settled, register_unbound config servers arrival socket allowed unbound, if_pos usable.1,
    register, connectionOf, table, if_pos rfl]
  rfl

/-- An invalid next id that is free: the new entry refers to the connection. -/
theorem unsettled_new (allowed : config.allowUnknownServers = true)
    (unbound : (bindEntries servers arrival.address socket).id.isValid = false)
    (invalid : getFreeServerId servers = ServerId.invalid)
    (free : servers.find? ServerId.invalid = none) :
    ¬ Settled (register config servers arrival socket) socket := by
  rw [← invalid] at free
  have table := (setServerSocketByAddress_opened config servers arrival.uninitialised
    arrival.address socket ⟨allowed, (unbound_iff servers arrival socket).mp unbound, free⟩).2
  rw [Settled, register_unbound config servers arrival socket allowed unbound, invalid]
  intro unreferred
  apply unreferred (getFreeServerId servers)
  rw [register, connectionOf, table, if_pos rfl]
  rfl

/-- An invalid next id that is taken: nothing is inserted, and the loop may have
bound the entry of the invalid id. -/
theorem settled_taken_iff (allowed : config.allowUnknownServers = true)
    (fresh : ∀ id, connectionOf servers id ≠ some socket)
    (unbound : (bindEntries servers arrival.address socket).id.isValid = false)
    (invalid : getFreeServerId servers = ServerId.invalid) (first : WorldServer)
    (found : servers.find? ServerId.invalid = some first) :
    Settled (register config servers arrival socket) socket ↔
      first.innerAddr ≠ arrival.address := by
  have unmatched := (unbound_iff servers arrival socket).mp unbound
  have keeps : ¬ OpensEntry config servers arrival.address := by
    intro opens
    have free := opens.2.2
    rw [invalid, found] at free
    cases free
  have looped := setServerSocketByAddress_kept config servers arrival.uninitialised
    arrival.address socket keeps
  rw [Settled, register_unbound config servers arrival socket allowed unbound, invalid]
  change (∀ id, connectionOf (register config servers arrival socket).servers id ≠ some socket) ↔ _
  constructor
  · intro unreferred same
    apply unreferred ServerId.invalid
    rw [register, Registry.holds_iff_touched (looped ServerId.invalid)]
    exact ⟨first, found, Or.inl same⟩
  · intro differs id refers
    rw [register, Registry.holds_iff_touched (looped id)] at refers
    obtain ⟨server, here, touched⟩ := refers
    have same : server.innerAddr = arrival.address :=
      touched.resolve_right fun holds =>
        fresh id ((connectionOf_eq_some servers id socket).mpr ⟨server, here, holds⟩)
    have isInvalid := ServerId.eq_invalid (unmatched id server here same)
    rw [isInvalid, found, Option.some.injEq] at here
    exact differs (here ▸ same)

theorem settled_iff (allowed : config.allowUnknownServers = true)
    (fresh : ∀ id, connectionOf servers id ≠ some socket) :
    Settled (register config servers arrival socket) socket ↔
      RoomFor servers arrival.address := by
  by_cases bound : (bindEntries servers arrival.address socket).id.isValid = true
  · have known := (bindEntries_valid_iff arrival.address socket servers).mp bound
    exact iff_of_true (settled_bound config servers arrival socket bound)
      (Or.inr (Or.inl known))
  · have unbound := (Bool.not_eq_true _).mp bound
    have unknown : ¬ ∃ id server, servers.find? id = some server ∧
        server.innerAddr = arrival.address ∧ id.isValid = true := fun known =>
      bound ((bindEntries_valid_iff arrival.address socket servers).mpr known)
    by_cases absent : servers.find? ⟨255⟩ = none
    · exact iff_of_true (settled_new config servers arrival socket allowed unbound
        ((usable_free_iff servers).mpr absent)) (Or.inl absent)
    · have invalid := getFreeServerId_invalid servers absent
      rw [RoomFor, or_iff_right absent, or_iff_right unknown]
      cases found : servers.find? ServerId.invalid with
      | none =>
          apply iff_of_false
            (unsettled_new config servers arrival socket allowed unbound invalid found)
          rintro ⟨server, impossible, _⟩
          cases impossible
      | some first =>
          rw [settled_taken_iff config servers arrival socket allowed fresh unbound invalid first
            found]
          simp only [Option.some.injEq, exists_eq_left']

theorem register_issued (id : ServerId) (object : Nat)
    (holds : connectionOf (register config servers arrival socket).servers id = some object) :
    object = socket ∨ ∃ other, connectionOf servers other = some object := by
  by_cases own : object = socket
  · exact Or.inl own
  · right
    by_cases opens : OpensEntry config servers arrival.address
    · have table := (setServerSocketByAddress_opened config servers arrival.uninitialised
        arrival.address socket opens).2 id
      by_cases isNew : id = getFreeServerId servers
      · rw [if_pos isNew] at table
        rw [register, connectionOf, table] at holds
        exact absurd (Option.some.inj holds).symm own
      · rw [if_neg isNew] at table
        exact ⟨id, Registry.held_before table object own holds⟩
    · have looped := setServerSocketByAddress_kept config servers arrival.uninitialised
        arrival.address socket opens id
      exact ⟨id, Registry.held_before looped object own holds⟩

end Register

end CServerList

namespace Registering

open CServerList

def start : Registering := ⟨CServerList.load, 0, fun _ _ impossible => by cases impossible⟩

theorem fresh (state : Registering) (id : ServerId) :
    connectionOf state.servers id ≠ some state.created := fun holds =>
  Nat.lt_irrefl state.created (state.issued id state.created holds)

theorem issued_after (config : WorldConfig) (state : Registering) (arrival : Arrival)
    (id : ServerId) (object : Nat)
    (holds : connectionOf (register config state.servers arrival state.created).servers id =
      some object) : object < state.created + 1 := by
  rcases register_issued config state.servers arrival state.created id object holds
    with own | ⟨other, before⟩
  · rw [own]
    exact Nat.lt_succ_self _
  · exact Nat.lt_succ_of_lt (state.issued other object before)

def step (config : WorldConfig) (state : Registering) (arrival : Arrival) : Option Registering :=
  some ⟨(register config state.servers arrival state.created).servers, state.created + 1,
    issued_after config state arrival⟩

def machine (config : WorldConfig) : EventRuns.Machine Registering Arrival := ⟨step config⟩

def Rightly (config : WorldConfig) (state : Registering) (arrival : Arrival) : Prop :=
  Settled (register config state.servers arrival state.created) state.created

def Room (state : Registering) (arrival : Arrival) : Prop :=
  RoomFor state.servers arrival.address

theorem rightly_iff_room (config : WorldConfig) (allowed : config.allowUnknownServers = true)
    (state : Registering) (arrival : Arrival) :
    Rightly config state arrival ↔ Room state arrival :=
  settled_iff config state.servers arrival state.created allowed state.fresh

/-- Every call gives an id that stands for its connection exactly as long as
there is room for the arrivals. -/
theorem ids_settled_iff (config : WorldConfig) (allowed : config.allowUnknownServers = true) :
    (∀ servers : CServerList,
      Usable servers (getFreeServerId servers) ↔ servers.find? ⟨255⟩ = none) ∧
    ∀ (state : Registering) (arrivals : List Arrival),
      (machine config).Guarded (Rightly config) state arrivals ↔
        (machine config).Guarded Room state arrivals := by
  refine ⟨usable_free_iff, fun state arrivals => ?_⟩
  exact (machine config).guarded_congr _ _ (rightly_iff_room config allowed) arrivals state

def lastValue (servers : CServerList) : Nat :=
  (servers.lastKey?.map fun id => id.value.toNat).getD 0

theorem next_value (servers : CServerList) (below : lastValue servers < 255) :
    (getFreeServerId servers).value.toNat = lastValue servers + 1 := by
  unfold lastValue at below ⊢
  cases last : servers.lastKey? with
  | none =>
      rw [getFreeServerId, last]
      rfl
  | some maxId =>
      rw [last, Option.map_some, Option.getD_some] at below
      rw [getFreeServerId_next servers maxId last, Option.map_some, Option.getD_some,
        UInt8.toNat_add]
      change (maxId.value.toNat + 1) % 256 = maxId.value.toNat + 1
      exact Nat.mod_eq_of_lt (Nat.succ_lt_succ below)

theorem absent_top (servers : CServerList) (below : lastValue servers < 255) :
    servers.find? ⟨255⟩ = none := by
  by_contra present
  rw [lastValue, (lastKey_top_iff servers).mpr present] at below
  exact Nat.lt_irrefl 255 below

theorem present_top (servers : CServerList) (full : ¬ lastValue servers < 255) :
    servers.find? ⟨255⟩ ≠ none := by
  apply (lastKey_top_iff servers).mp
  unfold lastValue at full
  cases last : servers.lastKey? with
  | none =>
      rw [last] at full
      exact absurd (Nat.succ_pos 254) full
  | some maxId =>
      rw [last, Option.map_some, Option.getD_some, Nat.not_lt] at full
      rw [eq_top maxId full]

theorem register_unknown (config : WorldConfig) (allowed : config.allowUnknownServers = true)
    (servers : CServerList) (arrival : Arrival) (socket : Nat)
    (unknown : ∀ entry ∈ servers.entries, entry.2.innerAddr ≠ arrival.address) :
    (register config servers arrival socket).servers =
      servers.insert (getFreeServerId servers)
        (newServer config arrival.uninitialised (getFreeServerId servers) arrival.address
          socket) := by
  rw [register, setServerSocketByAddress_unknown config servers arrival.uninitialised
    arrival.address socket unknown, if_pos allowed]

/-- Addresses that are new to the table use the ids up. -/
theorem new_addresses_exhaust (config : WorldConfig)
    (allowed : config.allowUnknownServers = true) (arrivals : List Arrival)
    (distinct : arrivals.Pairwise fun first second => first.address ≠ second.address)
    (state : Registering) (many : 255 < lastValue state.servers + arrivals.length)
    (unknown : ∀ entry ∈ state.servers.entries, ∀ arrival ∈ arrivals,
      entry.2.innerAddr ≠ arrival.address)
    (valid : state.servers.find? ServerId.invalid = none) :
    ¬ (machine config).Guarded Room state arrivals := by
  induction arrivals generalizing state with
  | nil =>
      rw [List.length_nil, Nat.add_zero] at many
      unfold lastValue at many
      cases last : state.servers.lastKey? with
      | none =>
          rw [last] at many
          exact absurd many (Nat.not_lt_zero 255)
      | some maxId =>
          rw [last] at many
          exact absurd many (Nat.not_lt.mpr (Nat.le_of_lt_succ maxId.value.toNat_lt))
  | cons arrival rest ih =>
      intro guarded
      obtain ⟨room, later⟩ := guarded _ rfl
      obtain ⟨headDistinct, restDistinct⟩ := List.pairwise_cons.mp distinct
      have own : ∀ entry ∈ state.servers.entries, entry.2.innerAddr ≠ arrival.address :=
        fun entry member => unknown entry member arrival List.mem_cons_self
      by_cases below : lastValue state.servers < 255
      · have usable := (usable_free_iff state.servers).mpr (absent_top state.servers below)
        have table := register_unknown config allowed state.servers arrival state.created own
        refine ih restDistinct _ ?_ ?_ ?_ later
        · change 255 < lastValue (register config state.servers arrival state.created).servers +
            rest.length
          rw [table, lastValue, OrderedMap.lastKey?_insert_above _ _ _
            (lt_getFreeServerId state.servers usable.1), Option.map_some, Option.getD_some,
            next_value state.servers below]
          rw [List.length_cons] at many
          omega
        · intro entry member other inRest
          change entry ∈ (register config state.servers arrival state.created).servers.entries at member
          rw [table] at member
          rcases OrderedMap.mem_insert _ _ _ entry member with isNew | old
          · rw [isNew]
            exact headDistinct other inRest
          · exact unknown entry old other (List.mem_cons_of_mem arrival inRest)
        · change (register config state.servers arrival state.created).servers.find? _ = none
          rw [table, OrderedMap.find?_insert, if_neg, valid]
          intro isFree
          have isValid := usable.1
          rw [← isFree] at isValid
          cases isValid
      · rcases room with absent | ⟨id, server, found, same, _⟩ | ⟨server, found, _⟩
        · exact present_top state.servers below absent
        · exact own (id, server) (state.servers.mem_of_find? id server found) same
        · rw [valid] at found
          cases found

def network : List Arrival :=
  (List.range 256).map fun host => ⟨⟨10, 0, 0, UInt8.ofNat host⟩, WorldServer.cleared⟩

theorem network_distinct :
    network.Pairwise fun first second => first.address ≠ second.address := by
  rw [network, List.pairwise_map]
  apply List.Pairwise.imp_of_mem _ List.pairwise_lt_range
  intro first second firstHost secondHost less same
  rw [List.mem_range] at firstHost secondHost
  have hosts : UInt8.ofNat first = UInt8.ofNat second := congrArg InAddr.b4 same
  have numbers := congrArg UInt8.toNat hosts
  rw [UInt8.toNat_ofNat_of_lt' firstHost, UInt8.toNat_ofNat_of_lt' secondHost] at numbers
  exact absurd numbers (Nat.ne_of_lt less)

def openWorld : WorldConfig := ⟨false, true, 7777⟩

/-- Two servers, the first of which connects again. -/
theorem ids_settled_iff_reconnected :
    openWorld.allowUnknownServers = true ∧
      (machine openWorld).Guarded (Rightly openWorld) start
        [⟨⟨10, 0, 0, 1⟩, WorldServer.cleared⟩, ⟨⟨10, 0, 0, 2⟩, WorldServer.cleared⟩,
          ⟨⟨10, 0, 0, 1⟩, WorldServer.cleared⟩] := by
  refine ⟨rfl, ((ids_settled_iff openWorld rfl).2 start _).mpr ?_⟩
  intro first stepped
  cases stepped
  refine ⟨Or.inl rfl, fun second stepped => ?_⟩
  cases stepped
  refine ⟨Or.inl rfl, fun third stepped => ?_⟩
  cases stepped
  exact ⟨Or.inl rfl, trivial⟩

/-- With 255 as the only id the next one is invalid, and the last of 256 servers
at addresses of their own gets the invalid id. -/
theorem ids_run_out :
    (∃ servers : CServerList, (∃ id, Usable servers id) ∧
      ¬ Usable servers (getFreeServerId servers)) ∧
    ¬ (machine openWorld).Guarded (Rightly openWorld) start network := by
  constructor
  · refine ⟨CServerList.load.insert ⟨255⟩ WorldServer.cleared, ⟨⟨1⟩, rfl, rfl⟩, fun usable => ?_⟩
    cases usable.1
  · rw [(machine openWorld).guarded_congr _ _ (rightly_iff_room openWorld rfl)]
    refine new_addresses_exhaust openWorld rfl network network_distinct start ?_ ?_ rfl
    · rw [network, List.length_map, List.length_range]
      exact Nat.lt_add_left _ (Nat.lt_succ_self 255)
    · intro entry impossible
      cases impossible

end Registering

end AuthServer
