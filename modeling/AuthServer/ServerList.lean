/-
The table of world servers.

`CServerList` maps a server id to a `WorldServer`.  A connection object is
named by a number of its own, so that a pointer to it still means that object
when it is gone.  Fields that the constructor of `WorldServer` leaves alone are
read from a record of the caller's choice.
-/

import AuthServer.InAddr
import AuthServer.Lib.OrderedMap
import Mathlib.Data.Nat.Basic

set_option autoImplicit false

namespace AuthServer

structure ServerId where
  value : UInt8

namespace ServerId

instance : LinearOrder ServerId :=
  LinearOrder.lift' (fun id => id.value.toNat) fun left right same => by
    cases left
    cases right
    exact congrArg ServerId.mk (UInt8.toNat_inj.mp same)

def invalid : ServerId := ⟨0⟩

def isValid (id : ServerId) : Bool := id.value != 0

theorem isValid_of_lt {first second : ServerId} (less : first < second) :
    second.isValid = true := by
  apply bne_iff_ne.mpr
  intro zero
  change first.value.toNat < second.value.toNat at less
  rw [zero] at less
  exact absurd less (Nat.not_lt_zero _)

theorem eq_invalid {id : ServerId} (invalid : id.isValid = false) : id = ServerId.invalid := by
  cases id
  exact congrArg ServerId.mk (bne_eq_false_iff_eq.mp invalid)

end ServerId

structure WorldServer where
  serverid : ServerId
  name : String
  outerAddr : InAddr
  outerPort : Int16
  innerAddr : InAddr
  ageLimit : Int8
  pkflag : UInt8
  userNum : Int
  maxUsers : Int
  s : Option Nat
  status : Int8
  regionId : Int
  isVIP : Int

def WorldServer.cleared : WorldServer :=
  ⟨ServerId.invalid, "", ⟨0, 0, 0, 0⟩, 0, ⟨0, 0, 0, 0⟩, 0, 0, 0, 0, none, 0, 0, 0⟩

structure WorldConfig where
  gameServerSpecifiesId : Bool
  allowUnknownServers : Bool
  worldPort : Int

abbrev CServerList := OrderedMap ServerId WorldServer

namespace CServerList

/-- `Load`, whose body is empty. -/
def load : CServerList := OrderedMap.empty

def getFreeServerId (servers : CServerList) : ServerId :=
  match servers.lastKey? with
  | none => ⟨1⟩
  | some maxId => ⟨maxId.value + 1⟩

/-- What the loop of `SetServerSocketByAddress` has done so far: the table, the
id it will return, and the connections it has closed. -/
structure Binding where
  servers : CServerList
  id : ServerId
  dropped : List Nat

def bindEntry (address : InAddr) (socket : Nat) (binding : Binding)
    (entry : ServerId × WorldServer) : Binding :=
  if entry.2.innerAddr.sAddr = address.sAddr then
    { servers := binding.servers.modify entry.1 fun server => { server with s := some socket }
      id := entry.1
      dropped := binding.dropped ++ entry.2.s.toList }
  else binding

def bindEntries (servers : CServerList) (address : InAddr) (socket : Nat) : Binding :=
  servers.entries.foldl (bindEntry address socket) ⟨servers, ServerId.invalid, []⟩

def newServer (config : WorldConfig) (uninitialised : WorldServer) (id : ServerId)
    (address : InAddr) (socket : Nat) : WorldServer :=
  { uninitialised with
    serverid := ServerId.invalid
    name := "Server " ++ toString id.value.toNat
    s := some socket
    innerAddr := address
    outerAddr := address
    outerPort := Int16.ofInt config.worldPort
    ageLimit := 0
    userNum := 0
    maxUsers := 0
    pkflag := 0 }

def setServerSocketByAddress (config : WorldConfig) (servers : CServerList)
    (uninitialised : WorldServer) (address : InAddr) (socket : Nat) : Binding :=
  let binding := bindEntries servers address socket
  if config.allowUnknownServers && !binding.id.isValid then
    let id := getFreeServerId binding.servers
    { binding with
      servers := binding.servers.insert id (newServer config uninitialised id address socket)
      id := id }
  else binding

/-- What `SetServerSocketById` did: the table, its result, and the connections
it closed. -/
structure Rebinding where
  servers : CServerList
  found : Bool
  dropped : List Nat

def newServerById (uninitialised : WorldServer) (id : ServerId) (socket : Nat)
    (actualAddress : InAddr) (actualPort : Int16) : WorldServer :=
  { uninitialised with
    name := "Server " ++ toString id.value.toNat
    s := some socket
    innerAddr := actualAddress
    outerAddr := actualAddress
    outerPort := actualPort
    serverid := id
    ageLimit := 0
    userNum := 0
    maxUsers := 0
    pkflag := 0
    regionId := 0 }

def takeOver (socket : Nat) (actualAddress : InAddr) (actualPort : Int16)
    (server : WorldServer) : WorldServer :=
  { server with
    s := some socket
    innerAddr := actualAddress
    outerAddr := actualAddress
    outerPort := actualPort }

def setServerSocketById (config : WorldConfig) (servers : CServerList)
    (uninitialised : WorldServer) (id : ServerId) (socket : Nat) (actualAddress : InAddr)
    (actualPort : Int16) : Rebinding :=
  match servers.find? id with
  | some server =>
      { servers := servers.modify id (takeOver socket actualAddress actualPort)
        found := true
        dropped := server.s.toList }
  | none =>
      if config.allowUnknownServers then
        { servers := servers.insert id
            (newServerById uninitialised id socket actualAddress actualPort)
          found := true
          dropped := [] }
      else ⟨servers, false, []⟩

def removeSocket (servers : CServerList) (socket : Nat) : CServerList :=
  servers.mapValues fun server =>
    if server.s = some socket then { server with status := 0, s := none } else server

def setServerStatus (servers : CServerList) (id : ServerId) (status : Int8) : CServerList :=
  servers.modify id fun server => { server with status := status }

def setServerVIPStatus (servers : CServerList) (id : ServerId) (isVIP : Int) : CServerList :=
  servers.modify id fun server => { server with isVIP := isVIP }

def setServerUserCount (servers : CServerList) (id : ServerId)
    (userCount userLimit : Int16) : CServerList :=
  servers.modify id fun server =>
    { server with userNum := userCount.toInt, maxUsers := userLimit.toInt }

def isServerUp (servers : CServerList) (id : ServerId) : Bool :=
  match servers.find? id with
  | some server => server.status != 0
  | none => false

def connectionOf (servers : CServerList) (id : ServerId) : Option Nat :=
  (servers.find? id).bind WorldServer.s

section Loop

variable (address : InAddr) (socket : Nat)

theorem bindEntry_id (binding : Binding) (entry : ServerId × WorldServer) :
    (bindEntry address socket binding entry).id =
      if entry.2.innerAddr.sAddr = address.sAddr then entry.1 else binding.id := by
  unfold bindEntry
  split <;> rfl

theorem bindLoop_none (entries : List (ServerId × WorldServer)) (binding : Binding)
    (unknown : ∀ entry ∈ entries, entry.2.innerAddr ≠ address) :
    entries.foldl (bindEntry address socket) binding = binding := by
  induction entries with
  | nil => rfl
  | cons entry rest ih =>
      have differs : entry.2.innerAddr.sAddr ≠ address.sAddr := fun same =>
        unknown entry List.mem_cons_self (InAddr.sAddr_injective _ _ same)
      rw [List.foldl_cons, bindEntry, if_neg differs]
      exact ih fun other member => unknown other (List.mem_cons_of_mem entry member)

theorem bindLoop_dropped (entries : List (ServerId × WorldServer)) (binding : Binding)
    (object : Nat)
    (member : object ∈ (entries.foldl (bindEntry address socket) binding).dropped) :
    object ∈ binding.dropped ∨ ∃ entry ∈ entries,
      entry.2.innerAddr = address ∧ entry.2.s = some object := by
  induction entries generalizing binding with
  | nil => exact Or.inl member
  | cons entry rest ih =>
      rw [List.foldl_cons] at member
      rcases ih _ member with before | ⟨other, inRest, holds⟩
      · unfold bindEntry at before
        split at before
        · rename_i matching
          rcases List.mem_append.mp before with earlier | here
          · exact Or.inl earlier
          · have same := InAddr.sAddr_injective _ _ matching
            exact Or.inr ⟨entry, List.mem_cons_self, same, Option.mem_toList.mp here⟩
        · exact Or.inl before
      · exact Or.inr ⟨other, List.mem_cons_of_mem entry inRest, holds⟩

theorem bindLoop_other (entries : List (ServerId × WorldServer)) (binding : Binding)
    (id : ServerId) (missing : ∀ entry ∈ entries, entry.1 ≠ id) :
    (entries.foldl (bindEntry address socket) binding).servers.find? id =
      binding.servers.find? id := by
  induction entries generalizing binding with
  | nil => rfl
  | cons entry rest ih =>
      rw [List.foldl_cons, ih _ fun other member => missing other (List.mem_cons_of_mem _ member)]
      unfold bindEntry
      split
      · exact (OrderedMap.find?_modify _ _ _ _).trans
          (if_neg (Ne.symm (missing entry List.mem_cons_self)))
      · rfl

def rebound (server : WorldServer) : WorldServer :=
  if server.innerAddr.sAddr = address.sAddr then { server with s := some socket } else server

/-- Each entry is visited once, so the loop changes the matching entries in place. -/
theorem bindEntries_find? (servers : CServerList) (id : ServerId) :
    (bindEntries servers address socket).servers.find? id =
      (servers.find? id).map (rebound address socket) := by
  unfold bindEntries
  cases found : servers.find? id with
  | none =>
      have missing : ∀ entry ∈ servers.entries, entry.1 ≠ id := by
        intro entry member same
        have differs := List.lookup_eq_none_iff.mp found entry member
        exact bne_iff_ne.mp differs same.symm
      rw [bindLoop_other address socket servers.entries _ id missing]
      exact found
  | some server =>
      obtain ⟨before, after, split, earlier⟩ := List.lookup_eq_some_iff.mp found
      have ascending := servers.ascending
      rw [split, List.pairwise_append, List.pairwise_cons] at ascending
      have missingAfter : ∀ entry ∈ after, entry.1 ≠ id := fun entry member =>
        ne_of_gt (ascending.2.1.1 entry member)
      have missingBefore : ∀ entry ∈ before, entry.1 ≠ id := fun entry member same =>
        bne_iff_ne.mp (earlier entry member) same.symm
      have untouched := bindLoop_other address socket before
        ⟨servers, ServerId.invalid, []⟩ id missingBefore
      rw [split, List.foldl_append, List.foldl_cons,
        bindLoop_other address socket after _ id missingAfter, bindEntry, Option.map_some, rebound]
      by_cases matching : server.innerAddr.sAddr = address.sAddr
      · simp only [if_pos matching, OrderedMap.find?_modify, if_true]
        rw [untouched, found, Option.map_some]
      · rw [if_neg matching, if_neg matching, untouched]
        exact found

theorem bindLoop_lastKey (entries : List (ServerId × WorldServer)) (binding : Binding) :
    (entries.foldl (bindEntry address socket) binding).servers.lastKey? =
      binding.servers.lastKey? := by
  induction entries generalizing binding with
  | nil => rfl
  | cons entry rest ih =>
      rw [List.foldl_cons, ih]
      unfold bindEntry
      split
      · exact OrderedMap.lastKey?_modify _ _ _
      · rfl

/-- In ascending order of the ids, the loop ends with a valid id just when a
matching entry has one. -/
theorem bindLoop_valid_iff (entries : List (ServerId × WorldServer)) (binding : Binding)
    (ascending : entries.Pairwise fun first second => first.1 < second.1)
    (later : binding.id.isValid = true → ∀ entry ∈ entries, entry.1.isValid = true) :
    (entries.foldl (bindEntry address socket) binding).id.isValid = true ↔
      binding.id.isValid = true ∨
        ∃ entry ∈ entries, entry.2.innerAddr = address ∧ entry.1.isValid = true := by
  induction entries generalizing binding with
  | nil => simp only [List.foldl_nil, List.not_mem_nil, false_and, exists_false, or_false]
  | cons entry rest ih =>
      obtain ⟨headFirst, restAscending⟩ := List.pairwise_cons.mp ascending
      rw [List.foldl_cons, ih _ restAscending]
      · rw [bindEntry_id]
        constructor
        · rintro (valid | ⟨other, member, facts⟩)
          · by_cases matching : entry.2.innerAddr.sAddr = address.sAddr
            · rw [if_pos matching] at valid
              have same := InAddr.sAddr_injective _ _ matching
              exact Or.inr ⟨entry, List.mem_cons_self, same, valid⟩
            · rw [if_neg matching] at valid
              exact Or.inl valid
          · exact Or.inr ⟨other, List.mem_cons_of_mem entry member, facts⟩
        · rintro (valid | ⟨other, member, same, valid⟩)
          · left
            split
            · exact later valid entry List.mem_cons_self
            · exact valid
          · rcases List.mem_cons.mp member with atHead | inRest
            · left
              rw [← atHead, same, if_pos rfl]
              exact valid
            · exact Or.inr ⟨other, inRest, same, valid⟩
      · intro valid other member
        rw [bindEntry_id] at valid
        split at valid
        · exact ServerId.isValid_of_lt (headFirst other member)
        · exact later valid other (List.mem_cons_of_mem entry member)

theorem bindEntries_valid_iff (servers : CServerList) :
    (bindEntries servers address socket).id.isValid = true ↔
      ∃ id server, servers.find? id = some server ∧ server.innerAddr = address ∧
        id.isValid = true := by
  unfold bindEntries
  rw [bindLoop_valid_iff address socket servers.entries _ servers.ascending
    (fun valid => by cases valid)]
  constructor
  · rintro (impossible | ⟨entry, member, facts⟩)
    · cases impossible
    · exact ⟨entry.1, entry.2, servers.find?_of_mem entry.1 entry.2 member, facts⟩
  · rintro ⟨id, server, found, facts⟩
    exact Or.inr ⟨(id, server), servers.mem_of_find? id server found, facts⟩

theorem bindLoop_id (entries : List (ServerId × WorldServer)) (binding : Binding)
    (id : ServerId) (only : ∀ entry ∈ entries, entry.2.innerAddr = address → entry.1 = id)
    (known : binding.id = id ∨ ∃ entry ∈ entries, entry.2.innerAddr = address) :
    (entries.foldl (bindEntry address socket) binding).id = id := by
  induction entries generalizing binding with
  | nil =>
      rcases known with started | ⟨entry, member, _⟩
      · exact started
      · cases member
  | cons entry rest ih =>
      rw [List.foldl_cons]
      apply ih _ fun other member => only other (List.mem_cons_of_mem entry member)
      rw [bindEntry_id]
      by_cases matching : entry.2.innerAddr.sAddr = address.sAddr
      · rw [if_pos matching]
        exact Or.inl (only entry List.mem_cons_self (InAddr.sAddr_injective _ _ matching))
      · rw [if_neg matching]
        rcases known with started | ⟨other, member, same⟩
        · exact Or.inl started
        · rcases List.mem_cons.mp member with atHead | inRest
          · rw [← atHead, same] at matching
            exact absurd rfl matching
          · exact Or.inr ⟨other, inRest, same⟩

end Loop

/-- An address without an entry: nothing is closed, and the table changes only
by the new entry where unknown servers are allowed. -/
theorem setServerSocketByAddress_unknown (config : WorldConfig) (servers : CServerList)
    (uninitialised : WorldServer) (address : InAddr) (socket : Nat)
    (unknown : ∀ entry ∈ servers.entries, entry.2.innerAddr ≠ address) :
    setServerSocketByAddress config servers uninitialised address socket =
      if config.allowUnknownServers then
        { servers := servers.insert (getFreeServerId servers)
            (newServer config uninitialised (getFreeServerId servers) address socket)
          id := getFreeServerId servers
          dropped := [] }
      else ⟨servers, ServerId.invalid, []⟩ := by
  have untouched : bindEntries servers address socket = ⟨servers, ServerId.invalid, []⟩ :=
    bindLoop_none address socket servers.entries _ unknown
  rw [setServerSocketByAddress, untouched]
  cases config.allowUnknownServers with
  | true => rfl
  | false => rfl

theorem setServerSocketByAddress_known (config : WorldConfig) (servers : CServerList)
    (uninitialised : WorldServer) (address : InAddr) (socket : Nat)
    (valid : ∀ entry ∈ servers.entries, entry.1.isValid = true)
    (known : ∃ entry ∈ servers.entries, entry.2.innerAddr = address) :
    (setServerSocketByAddress config servers uninitialised address socket).id.isValid =
      true := by
  have bound : (bindEntries servers address socket).id.isValid = true := by
    obtain ⟨entry, member, same⟩ := known
    apply (bindEntries_valid_iff address socket servers).mpr
    exact ⟨entry.1, entry.2, servers.find?_of_mem entry.1 entry.2 member, same,
      valid entry member⟩
  simp only [setServerSocketByAddress, bound, Bool.not_true, Bool.and_false,
    Bool.false_eq_true, if_false]

/-- The next id is invalid only after the last one, 255. -/
theorem getFreeServerId_valid_iff (servers : CServerList) :
    (getFreeServerId servers).isValid = true ↔ servers.lastKey? ≠ some ⟨255⟩ := by
  unfold getFreeServerId
  cases last : servers.lastKey? with
  | none => simp [ServerId.isValid]
  | some maxId =>
      simp only [ServerId.isValid, bne_iff_ne, ne_eq, Option.some.injEq]
      constructor
      · intro valid same
        rw [same] at valid
        exact valid rfl
      · intro differs wrapped
        apply differs
        have value : maxId.value = 255 := by
          have number := congrArg UInt8.toNat wrapped
          apply UInt8.toNat_inj.mp
          rw [UInt8.toNat_add] at number
          have bound := maxId.value.toNat_lt
          change (maxId.value.toNat + 1) % 256 = 0 at number
          change maxId.value.toNat = 255
          omega
        cases maxId
        exact congrArg ServerId.mk value

theorem getFreeServerId_next (servers : CServerList) (maxId : ServerId)
    (last : servers.lastKey? = some maxId) :
    getFreeServerId servers = ⟨maxId.value + 1⟩ := by
  rw [getFreeServerId, last]

theorem lt_getFreeServerId (servers : CServerList)
    (valid : (getFreeServerId servers).isValid = true) (entry : ServerId × WorldServer)
    (member : entry ∈ servers.entries) : entry.1 < getFreeServerId servers := by
  obtain ⟨maxId, last⟩ := servers.exists_lastKey entry member
  rw [getFreeServerId_next servers maxId last] at valid ⊢
  apply lt_of_le_of_lt (servers.le_lastKey maxId last entry member)
  change maxId.value.toNat < (maxId.value + 1).toNat
  have nonzero : (maxId.value + 1).toNat ≠ 0 := fun zero =>
    bne_iff_ne.mp valid (UInt8.toNat_inj.mp zero)
  rw [UInt8.toNat_add] at nonzero ⊢
  change (maxId.value.toNat + 1) % 256 ≠ 0 at nonzero
  change maxId.value.toNat < (maxId.value.toNat + 1) % 256
  have bound := maxId.value.toNat_lt
  omega

theorem getFreeServerId_missing (servers : CServerList)
    (valid : (getFreeServerId servers).isValid = true) :
    servers.find? (getFreeServerId servers) = none := by
  cases found : servers.find? (getFreeServerId servers) with
  | none => rfl
  | some server =>
      have member := servers.mem_of_find? _ server found
      exact absurd (lt_getFreeServerId servers valid _ member) (lt_irrefl _)

/-- The cases in which binding by address makes a new entry: no entry with a
valid id has the address, and the free id is free. -/
def OpensEntry (config : WorldConfig) (servers : CServerList) (address : InAddr) : Prop :=
  config.allowUnknownServers = true ∧
    (∀ id server, servers.find? id = some server → server.innerAddr = address →
      id.isValid = false) ∧
    servers.find? (getFreeServerId servers) = none

section ByAddress

variable (config : WorldConfig) (servers : CServerList) (uninitialised : WorldServer)
variable (address : InAddr) (socket : Nat)

theorem bindEntries_free :
    getFreeServerId (bindEntries servers address socket).servers = getFreeServerId servers := by
  have last := bindLoop_lastKey address socket servers.entries ⟨servers, ServerId.invalid, []⟩
  change (bindEntries servers address socket).servers.lastKey? = servers.lastKey? at last
  rw [getFreeServerId, last]
  rfl

theorem setServerSocketByAddress_opened (opens : OpensEntry config servers address) :
    (setServerSocketByAddress config servers uninitialised address socket).id =
      getFreeServerId servers ∧
    ∀ id, (setServerSocketByAddress config servers uninitialised address socket).servers.find? id =
      if id = getFreeServerId servers then
        some (newServer config uninitialised (getFreeServerId servers) address socket)
      else (servers.find? id).map (rebound address socket) := by
  obtain ⟨allowed, unmatched, free⟩ := opens
  have unbound : (bindEntries servers address socket).id.isValid = false := by
    apply Bool.eq_false_iff.mpr
    intro valid
    obtain ⟨id, server, found, same, isValid⟩ :=
      (bindEntries_valid_iff address socket servers).mp valid
    rw [unmatched id server found same] at isValid
    cases isValid
  simp only [setServerSocketByAddress, allowed, unbound, Bool.not_false, Bool.and_true, if_true,
    bindEntries_free, OrderedMap.find?_insert, bindEntries_find?, free, Option.map_none,
    Option.getD_none, true_and, implies_true]

theorem setServerSocketByAddress_kept (keeps : ¬ OpensEntry config servers address)
    (id : ServerId) :
    (setServerSocketByAddress config servers uninitialised address socket).servers.find? id =
      (servers.find? id).map (rebound address socket) := by
  rw [← bindEntries_find?]
  unfold setServerSocketByAddress
  simp only
  split
  · rename_i opening
    obtain ⟨allowed, unbound⟩ := Bool.and_eq_true_iff.mp opening
    rw [Bool.not_eq_true'] at unbound
    have unmatched : ∀ id server, servers.find? id = some server →
        server.innerAddr = address → id.isValid = false := by
      intro other server found same
      apply Bool.eq_false_iff.mpr
      intro valid
      have bound := (bindEntries_valid_iff address socket servers).mpr
        ⟨other, server, found, same, valid⟩
      rw [unbound] at bound
      cases bound
    -- The free id is taken: inserting under it changes nothing.
    have taken : servers.find? (getFreeServerId servers) ≠ none := fun free =>
      keeps ⟨allowed, unmatched, free⟩
    rw [OrderedMap.find?_insert, bindEntries_free]
    by_cases same : id = getFreeServerId servers
    · rw [if_pos same, same, bindEntries_find?]
      obtain ⟨server, found⟩ := Option.ne_none_iff_exists'.mp taken
      rw [found]
      rfl
    · rw [if_neg same]
  · rfl

theorem setServerSocketByAddress_id (keeps : ¬ OpensEntry config servers address)
    (id : ServerId)
    (only : ∀ other server, servers.find? other = some server → server.innerAddr = address →
      other = id)
    (known : ∃ server, servers.find? id = some server ∧ server.innerAddr = address) :
    (setServerSocketByAddress config servers uninitialised address socket).id = id := by
  obtain ⟨server, found, same⟩ := known
  have bound : (bindEntries servers address socket).id = id := by
    apply bindLoop_id address socket servers.entries _ id
    · intro entry member matching
      exact only entry.1 entry.2 (servers.find?_of_mem _ _ member) matching
    · exact Or.inr ⟨(id, server), servers.mem_of_find? id server found, same⟩
  unfold setServerSocketByAddress
  simp only
  split
  · rename_i opening
    obtain ⟨allowed, unbound⟩ := Bool.and_eq_true_iff.mp opening
    rw [bound, Bool.not_eq_true'] at unbound
    -- The entry has the invalid id, so no id is free and the invalid one is returned.
    have wrapped : (getFreeServerId servers).isValid = false := by
      apply Bool.eq_false_iff.mpr
      intro valid
      apply keeps
      refine ⟨allowed, fun other server found matching => ?_, getFreeServerId_missing servers valid⟩
      rw [only other server found matching]
      exact unbound
    rw [bindEntries_free]
    exact (ServerId.eq_invalid wrapped).trans (ServerId.eq_invalid unbound).symm
  · exact bound

theorem setServerSocketByAddress_closes (object : Nat)
    (member : object ∈ (setServerSocketByAddress config servers uninitialised address
      socket).dropped) :
    ∃ id server, servers.find? id = some server ∧ server.innerAddr = address ∧
      server.s = some object := by
  have looped : object ∈ (bindEntries servers address socket).dropped := by
    unfold setServerSocketByAddress at member
    simp only at member
    split at member
    · exact member
    · exact member
  rcases bindLoop_dropped address socket servers.entries _ object looped with before | found
  · cases before
  · obtain ⟨entry, inside, facts⟩ := found
    exact ⟨entry.1, entry.2, servers.find?_of_mem _ _ inside, facts⟩

/-- Only connections that an entry pointed to are closed. -/
theorem setServerSocketByAddress_dropped (object : Nat)
    (member : object ∈ (setServerSocketByAddress config servers uninitialised address
      socket).dropped) :
    ∃ entry ∈ servers.entries, entry.2.s = some object := by
  obtain ⟨id, server, found, _, holds⟩ := setServerSocketByAddress_closes config servers
    uninitialised address socket object member
  exact ⟨(id, server), servers.mem_of_find? id server found, holds⟩

end ByAddress

theorem setServerSocketById_find? (config : WorldConfig) (servers : CServerList)
    (uninitialised : WorldServer) (id other : ServerId) (socket : Nat) (actualAddress : InAddr)
    (actualPort : Int16) :
    (setServerSocketById config servers uninitialised id socket actualAddress
      actualPort).servers.find? other =
      if other = id then
        match servers.find? id with
        | some server => some (takeOver socket actualAddress actualPort server)
        | none =>
            if config.allowUnknownServers then
              some (newServerById uninitialised id socket actualAddress actualPort)
            else none
      else servers.find? other := by
  unfold setServerSocketById
  cases found : servers.find? id with
  | some server => simp only [OrderedMap.find?_modify, found, Option.map_some]
  | none =>
      simp only
      by_cases allowed : config.allowUnknownServers = true
      · simp only [if_pos allowed, OrderedMap.find?_insert, found, Option.getD_none]
      · simp only [if_neg allowed]
        by_cases same : other = id
        · rw [if_pos same, same, found]
        · rw [if_neg same]

theorem removeSocket_find? (servers : CServerList) (socket : Nat) (id : ServerId) :
    (removeSocket servers socket).find? id = (servers.find? id).map fun server =>
      if server.s = some socket then { server with status := 0, s := none } else server :=
  OrderedMap.find?_mapValues servers id _

theorem connectionOf_eq_some (servers : CServerList) (id : ServerId) (object : Nat) :
    connectionOf servers id = some object ↔
      ∃ server, servers.find? id = some server ∧ server.s = some object :=
  Option.bind_eq_some_iff

theorem connectionOf_modify (servers : CServerList) (key id : ServerId)
    (change : WorldServer → WorldServer) :
    connectionOf (servers.modify key change) id =
      if id = key then (servers.find? key).bind fun server => (change server).s
      else connectionOf servers id := by
  unfold connectionOf
  rw [OrderedMap.find?_modify]
  by_cases same : id = key
  · rw [if_pos same, if_pos same, Option.bind_map]
    rfl
  · rw [if_neg same, if_neg same]

theorem connectionOf_kept (servers : CServerList) (key id : ServerId)
    (change : WorldServer → WorldServer) (keeps : ∀ server, (change server).s = server.s) :
    connectionOf (servers.modify key change) id = connectionOf servers id := by
  rw [connectionOf_modify]
  by_cases same : id = key
  · rw [if_pos same, same, connectionOf, funext keeps]
  · rw [if_neg same]

theorem connectionOf_removeSocket (servers : CServerList) (socket : Nat) (id : ServerId) :
    connectionOf (removeSocket servers socket) id =
      if connectionOf servers id = some socket then none else connectionOf servers id := by
  unfold connectionOf
  rw [removeSocket_find?]
  cases found : servers.find? id with
  | none => rfl
  | some server =>
      simp only [Option.map_some, Option.bind_some]
      split
      · rfl
      · rfl

end CServerList

end AuthServer
