/-
Concurrent bindings of connections to server ids.

The two functions that bind a connection give the lock up to close the one they
displace.  What they do under the lock between two such points is one step, and
closing is a step of its own.  Every call brings a new connection of its own,
so a call is named by its connection.
-/

import AuthServer.Lib.EventRuns
import AuthServer.ServerList

set_option autoImplicit false

namespace AuthServer

inductive BindRequest where
  | byId (uninitialised : WorldServer) (id : ServerId) (actualAddress : InAddr)
      (actualPort : Int16)
  | byAddress (uninitialised : WorldServer) (address : InAddr)

/-- Where a call stands: about to close the connection it took out of an entry,
about to take the lock again and write that entry, or done. -/
inductive BindProgress where
  | closing (old : Nat) (slot : ServerId)
  | writing (slot : ServerId)
  | returned

structure BindCall where
  request : BindRequest
  progress : BindProgress

/-- What one locked stretch did: the table behind it, the ids whose entries took
the connection in it, the variable `id`, and where the call stands now. -/
structure Stretch where
  servers : CServerList
  taken : List ServerId
  id : ServerId
  progress : BindProgress

structure Rebinds where
  servers : CServerList
  calls : Nat → Option BindCall
  closed : List Nat
  removed : List Nat
  bound : List (Nat × ServerId)

inductive RebindEvent where
  | call (socket : Nat) (request : BindRequest)
  | proceed (socket : Nat)
  | removeSocket (socket : Nat)

namespace Rebinds

open CServerList

def clear (server : WorldServer) : WorldServer := { server with s := none }

def connect (socket : Nat) (server : WorldServer) : WorldServer :=
  { server with s := some socket }

def byIdStart (config : WorldConfig) (servers : CServerList) (uninitialised : WorldServer)
    (id : ServerId) (socket : Nat) (actualAddress : InAddr) (actualPort : Int16) : Stretch :=
  match servers.find? id with
  | some server =>
      match server.s with
      | some oldSocket => ⟨servers.modify id clear, [], id, .closing oldSocket id⟩
      | none =>
          ⟨servers.modify id (takeOver socket actualAddress actualPort), [id], id, .returned⟩
  | none =>
      if config.allowUnknownServers then
        ⟨servers.insert id (newServerById uninitialised id socket actualAddress actualPort), [id],
          id, .returned⟩
      else ⟨servers, [], id, .returned⟩

def byIdResume (servers : CServerList) (slot : ServerId) (socket : Nat) (actualAddress : InAddr)
    (actualPort : Int16) : Stretch :=
  ⟨servers.modify slot (takeOver socket actualAddress actualPort), [slot], slot, .returned⟩

def scan (address : InAddr) (socket : Nat) : List (ServerId × WorldServer) → Stretch → Stretch
  | [], stretch => stretch
  | entry :: rest, stretch =>
      if entry.2.innerAddr.sAddr = address.sAddr then
        match entry.2.s with
        | some oldSocket =>
            { stretch with
              servers := stretch.servers.modify entry.1 clear
              progress := .closing oldSocket entry.1 }
        | none =>
            scan address socket rest
              { stretch with
                servers := stretch.servers.modify entry.1 (connect socket)
                taken := stretch.taken ++ [entry.1]
                id := entry.1 }
      else scan address socket rest stretch

def finish (config : WorldConfig) (uninitialised : WorldServer) (address : InAddr) (socket : Nat)
    (stretch : Stretch) : Stretch :=
  match stretch.progress with
  | .returned =>
      if config.allowUnknownServers && !stretch.id.isValid then
        let id := getFreeServerId stretch.servers
        { stretch with
          servers := stretch.servers.insert id (newServer config uninitialised id address socket)
          taken :=
            if (stretch.servers.find? id).isNone then stretch.taken ++ [id] else stretch.taken
          id := id }
      else stretch
  | _ => stretch

def byAddressStart (config : WorldConfig) (servers : CServerList) (uninitialised : WorldServer)
    (address : InAddr) (socket : Nat) : Stretch :=
  finish config uninitialised address socket
    (scan address socket servers.entries ⟨servers, [], ServerId.invalid, .returned⟩)

def byAddressResume (config : WorldConfig) (servers : CServerList) (uninitialised : WorldServer)
    (address : InAddr) (slot : ServerId) (socket : Nat) : Stretch :=
  let servers := servers.modify slot (connect socket)
  finish config uninitialised address socket
    (scan address socket (servers.entries.filter fun entry => slot < entry.1)
      ⟨servers, [slot], slot, .returned⟩)

def startCall (config : WorldConfig) (servers : CServerList) (socket : Nat) :
    BindRequest → Stretch
  | .byId uninitialised id actualAddress actualPort =>
      byIdStart config servers uninitialised id socket actualAddress actualPort
  | .byAddress uninitialised address =>
      byAddressStart config servers uninitialised address socket

def resumeCall (config : WorldConfig) (servers : CServerList) (slot : ServerId) (socket : Nat) :
    BindRequest → Stretch
  | .byId _ _ actualAddress actualPort =>
      byIdResume servers slot socket actualAddress actualPort
  | .byAddress uninitialised address =>
      byAddressResume config servers uninitialised address slot socket

def setCall (state : Rebinds) (socket : Nat) (call : BindCall) : Rebinds :=
  { state with
    calls := fun other => if other = socket then some call else state.calls other }

def afterStretch (state : Rebinds) (socket : Nat) (request : BindRequest) (stretch : Stretch) :
    Rebinds :=
  { state.setCall socket ⟨request, stretch.progress⟩ with
    servers := stretch.servers
    bound := state.bound ++ stretch.taken.map fun id => (socket, id) }

def holdsAnywhere (servers : CServerList) (socket : Nat) : Bool :=
  servers.entries.any fun entry => entry.2.s == some socket

def step (config : WorldConfig) (state : Rebinds) : RebindEvent → Option Rebinds
  | .call socket request =>
      match state.calls socket with
      | some _ => none
      | none =>
          some (state.afterStretch socket request (startCall config state.servers socket request))
  | .proceed socket =>
      match state.calls socket with
      | none => none
      | some call =>
          match call.progress with
          | .closing old slot =>
              some
                { state.setCall socket ⟨call.request, .writing slot⟩ with
                  closed := old :: state.closed }
          | .writing slot =>
              some (state.afterStretch socket call.request
                (resumeCall config state.servers slot socket call.request))
          | .returned => none
  | .removeSocket socket =>
      some
        { state with
          servers := removeSocket state.servers socket
          removed :=
            if holdsAnywhere state.servers socket then socket :: state.removed
            else state.removed }

def machine (config : WorldConfig) : EventRuns.Machine Rebinds RebindEvent := ⟨step config⟩

def start : Rebinds := ⟨CServerList.load, fun _ => none, [], [], []⟩

def AllReturned (state : Rebinds) : Prop :=
  ∀ socket call, state.calls socket = some call → call.progress = .returned

/-- The connection is still the one of the id, or somebody saw to its end. -/
def Settled (state : Rebinds) (object : Nat) (id : ServerId) : Prop :=
  connectionOf state.servers id = some object ∨ object ∈ state.closed ∨ object ∈ state.removed

/-- When all calls have returned, no displaced connection is forgotten. -/
def NoneForgotten (state : Rebinds) : Prop :=
  state.AllReturned → ∀ object id, (object, id) ∈ state.bound → state.Settled object id

def AboutToClose (state : Rebinds) (object : Nat) : Prop :=
  ∃ socket call slot, state.calls socket = some call ∧ call.progress = .closing object slot

def Accounted (state : Rebinds) : Prop :=
  ∀ object id, (object, id) ∈ state.bound →
    state.Settled object id ∨ state.AboutToClose object

/-- A call that takes the lock again finds its entry empty, or with a connection
that is closed or removed already. -/
def SlotFree (state : Rebinds) : RebindEvent → Prop
  | .proceed socket =>
      ∀ call slot other, state.calls socket = some call → call.progress = .writing slot →
        connectionOf state.servers slot = some other →
        other ∈ state.closed ∨ other ∈ state.removed
  | _ => True

/-- Run without a break, the stretches of a binding by id are the whole function. -/
theorem byId_uninterrupted (config : WorldConfig) (servers : CServerList)
    (uninitialised : WorldServer) (id : ServerId) (socket : Nat) (actualAddress : InAddr)
    (actualPort : Int16) :
    let whole := setServerSocketById config servers uninitialised id socket actualAddress actualPort
    let first := byIdStart config servers uninitialised id socket actualAddress actualPort
    (first.progress = .returned ∧ first.servers = whole.servers ∧ whole.dropped = []) ∨
      ∃ old, first.progress = .closing old id ∧ whole.dropped = [old] ∧
        (byIdResume first.servers id socket actualAddress actualPort).servers =
          whole.servers := by
  intro whole first
  cases found : servers.find? id with
  | some server =>
      cases holds : server.s with
      | some old =>
          right
          simp only [whole, first, byIdStart, setServerSocketById, found, holds]
          refine ⟨old, rfl, rfl, ?_⟩
          exact OrderedMap.modify_modify servers id clear _
      | none =>
          left
          simp only [whole, first, byIdStart, setServerSocketById, found, holds]
          exact ⟨trivial, trivial, rfl⟩
  | none =>
      left
      simp only [whole, first, byIdStart, setServerSocketById, found]
      split
      · exact ⟨rfl, rfl, rfl⟩
      · exact ⟨rfl, rfl, rfl⟩

def slotOf : BindProgress → Option ServerId
  | .closing _ slot => some slot
  | .writing slot => some slot
  | .returned => none

/-- A stretch loses no connection: one that it takes out of an entry is about to
be closed, and those of the given list need not be kept. -/
def Keeps (servers : CServerList) (done : List Nat) (stretch : Stretch) : Prop :=
  ∀ id object, connectionOf servers id = some object →
    connectionOf stretch.servers id = some object ∨
      (∃ slot, stretch.progress = .closing object slot) ∨ object ∈ done

/-- The entries taken in a stretch hold the connection behind it, or it is about
to be closed. -/
def Binds (socket : Nat) (stretch : Stretch) : Prop :=
  ∀ id ∈ stretch.taken, connectionOf stretch.servers id = some socket ∨
    ∃ slot, stretch.progress = .closing socket slot

/-- No entry ever leaves the table. -/
def Grows (servers changed : CServerList) : Prop :=
  ∀ id, (servers.find? id).isSome = true → (changed.find? id).isSome = true

structure Sound (servers : CServerList) (done : List Nat) (socket : Nat) (stretch : Stretch) :
    Prop where
  keeps : Keeps servers done stretch
  binds : Binds socket stretch
  grows : Grows servers stretch.servers
  slot : ∀ slot, slotOf stretch.progress = some slot →
    (stretch.servers.find? slot).isSome = true

theorem grows_modify (servers : CServerList) (key : ServerId)
    (change : WorldServer → WorldServer) : Grows servers (servers.modify key change) := by
  intro id present
  rw [OrderedMap.find?_modify]
  by_cases same : id = key
  · rw [if_pos same, Option.isSome_map, ← same]
    exact present
  · rw [if_neg same]
    exact present

theorem grows_insert (servers : CServerList) (key : ServerId) (server : WorldServer) :
    Grows servers (servers.insert key server) := by
  intro id present
  rw [OrderedMap.find?_insert]
  split
  · rfl
  · exact present

theorem connectionOf_clear (servers : CServerList) (key id : ServerId) :
    connectionOf (servers.modify key clear) id =
      if id = key then none else connectionOf servers id := by
  rw [connectionOf_modify]
  split
  · cases servers.find? key with
    | none => rfl
    | some server => rfl
  · rfl

/-- Clearing the entry of a connection that is closed next loses nothing. -/
theorem keeps_clear (servers : CServerList) (done : List Nat) (id : ServerId)
    (server : WorldServer) (old : Nat) (stretch : Stretch)
    (found : servers.find? id = some server) (holds : server.s = some old)
    (cleared : stretch.servers = servers.modify id clear)
    (closing : stretch.progress = .closing old id) : Keeps servers done stretch := by
  intro other object connected
  by_cases same : other = id
  · have own : connectionOf servers id = some old :=
      (connectionOf_eq_some servers id old).mpr ⟨server, found, holds⟩
    rw [same, own, Option.some.injEq] at connected
    rw [← connected]
    exact Or.inr (Or.inl ⟨id, closing⟩)
  · left
    rw [cleared, connectionOf_clear, if_neg same]
    exact connected

/-- Writing an entry that has no connection to lose loses nothing. -/
theorem keeps_write (servers : CServerList) (done : List Nat) (id : ServerId)
    (change : WorldServer → WorldServer) (stretch : Stretch)
    (written : stretch.servers = servers.modify id change)
    (free : ∀ other, connectionOf servers id = some other → other ∈ done) :
    Keeps servers done stretch := by
  intro other object connected
  by_cases same : other = id
  · rw [same] at connected
    exact Or.inr (Or.inr (free object connected))
  · left
    rw [written, connectionOf_modify, if_neg same]
    exact connected

theorem connectionOf_connect (servers : CServerList) (id : ServerId) (socket : Nat)
    (change : WorldServer → WorldServer) (connects : ∀ server, (change server).s = some socket)
    (present : (servers.find? id).isSome = true) :
    connectionOf (servers.modify id change) id = some socket := by
  obtain ⟨server, found⟩ := Option.isSome_iff_exists.mp present
  rw [connectionOf_modify, if_pos rfl, found]
  exact connects server

theorem connectionOf_insert (servers : CServerList) (id other : ServerId) (server : WorldServer)
    (object : Nat) (connected : connectionOf servers other = some object) :
    connectionOf (servers.insert id server) other = some object := by
  obtain ⟨before, found, holds⟩ := (connectionOf_eq_some servers other object).mp connected
  rw [connectionOf, OrderedMap.find?_insert]
  by_cases same : other = id
  · rw [if_pos same, ← same, found]
    exact holds
  · rw [if_neg same]
    exact connected

theorem connectionOf_insert_new (servers : CServerList) (id : ServerId) (server : WorldServer)
    (socket : Nat) (holds : server.s = some socket) (missing : servers.find? id = none) :
    connectionOf (servers.insert id server) id = some socket := by
  rw [connectionOf, OrderedMap.find?_insert, if_pos rfl, missing]
  exact holds

theorem byIdStart_sound (config : WorldConfig) (servers : CServerList) (done : List Nat)
    (uninitialised : WorldServer) (id : ServerId) (socket : Nat) (actualAddress : InAddr)
    (actualPort : Int16) :
    Sound servers done socket
      (byIdStart config servers uninitialised id socket actualAddress actualPort) := by
  unfold byIdStart
  cases found : servers.find? id with
  | some server =>
      cases holds : server.s with
      | some old =>
          simp only [holds]
          constructor
          · exact keeps_clear servers done id server old _ found holds rfl rfl
          · exact List.forall_mem_nil _
          · exact grows_modify servers id clear
          · intro slot own
            rw [← Option.some.inj own]
            exact grows_modify servers id clear id (by rw [found]; rfl)
      | none =>
          simp only [holds]
          constructor
          · apply keeps_write servers done id _ _ rfl
            intro other connected
            rw [connectionOf, found, Option.bind_some, holds] at connected
            cases connected
          · intro other member
            rw [List.mem_singleton.mp member]
            left
            exact connectionOf_connect servers id socket _ (fun _ => rfl) (by rw [found]; rfl)
          · exact grows_modify servers id _
          · exact fun _ impossible => by cases impossible
  | none =>
      simp only
      split
      · constructor
        · exact fun other object connected =>
            Or.inl (connectionOf_insert servers id other _ object connected)
        · intro other member
          rw [List.mem_singleton.mp member]
          exact Or.inl (connectionOf_insert_new servers id _ socket rfl found)
        · exact grows_insert servers id _
        · exact fun _ impossible => by cases impossible
      · constructor
        · exact fun _ _ connected => Or.inl connected
        · exact List.forall_mem_nil _
        · exact fun _ present => present
        · exact fun _ impossible => by cases impossible

theorem Sound.next {servers : CServerList} {done : List Nat} {socket : Nat}
    {first second : Stretch} (sound : Sound servers done socket first)
    (returned : first.progress = .returned) (keeps : Keeps first.servers [] second)
    (more : ∀ id ∈ second.taken, id ∈ first.taken ∨
      connectionOf second.servers id = some socket)
    (grows : Grows first.servers second.servers)
    (slot : ∀ slot, slotOf second.progress = some slot →
      (second.servers.find? slot).isSome = true) : Sound servers done socket second := by
  constructor
  · intro id object connected
    rcases sound.keeps id object connected with kept | ⟨slot, closing⟩ | ended
    · rcases keeps id object kept with still | closing | impossible
      · exact Or.inl still
      · exact Or.inr (Or.inl closing)
      · cases impossible
    · rw [returned] at closing
      cases closing
    · exact Or.inr (Or.inr ended)
  · intro id member
    rcases more id member with before | connected
    · rcases sound.binds id before with connected | ⟨slot, closing⟩
      · rcases keeps id socket connected with still | closing | impossible
        · exact Or.inl still
        · exact Or.inr closing
        · cases impossible
      · rw [returned] at closing
        cases closing
    · exact Or.inl connected
  · exact fun id present => grows id (sound.grows id present)
  · exact slot

theorem scan_sound (servers : CServerList) (done : List Nat) (address : InAddr) (socket : Nat)
    (entries : List (ServerId × WorldServer)) (stretch : Stretch)
    (ascending : entries.Pairwise fun first second => first.1 < second.1)
    (current : ∀ entry ∈ entries, stretch.servers.find? entry.1 = some entry.2)
    (returned : stretch.progress = .returned) (sound : Sound servers done socket stretch) :
    Sound servers done socket (scan address socket entries stretch) := by
  induction entries generalizing stretch with
  | nil => exact sound
  | cons entry rest ih =>
      obtain ⟨headFirst, restAscending⟩ := List.pairwise_cons.mp ascending
      have found := current entry List.mem_cons_self
      unfold scan
      split
      · cases holds : entry.2.s with
        | some old =>
            apply sound.next returned
            · exact keeps_clear stretch.servers [] entry.1 entry.2 old _ found holds rfl rfl
            · exact fun id member => Or.inl member
            · exact grows_modify stretch.servers entry.1 clear
            · intro slot own
              rw [← Option.some.inj own]
              exact grows_modify stretch.servers entry.1 clear entry.1 (by rw [found]; rfl)
        | none =>
            have free : ∀ other, connectionOf stretch.servers entry.1 = some other →
                other ∈ ([] : List Nat) := by
              intro other connected
              rw [connectionOf, found, Option.bind_some, holds] at connected
              cases connected
            apply ih _ restAscending
            · intro other member
              have differs : other.1 ≠ entry.1 := ne_of_gt (headFirst other member)
              rw [OrderedMap.find?_modify, if_neg differs]
              exact current other (List.mem_cons_of_mem entry member)
            · exact returned
            · apply sound.next returned
              · exact keeps_write stretch.servers [] entry.1 _ _ rfl free
              · intro id member
                rcases List.mem_append.mp member with before | here
                · exact Or.inl before
                · rw [List.mem_singleton.mp here]
                  right
                  exact connectionOf_connect stretch.servers entry.1 socket _ (fun _ => rfl)
                    (by rw [found]; rfl)
              · exact grows_modify stretch.servers entry.1 _
              · intro slot own
                rw [returned] at own
                cases own
      · exact ih stretch restAscending
          (fun other member => current other (List.mem_cons_of_mem entry member)) returned sound

theorem finish_sound (config : WorldConfig) (servers : CServerList) (done : List Nat)
    (uninitialised : WorldServer) (address : InAddr) (socket : Nat) (stretch : Stretch)
    (sound : Sound servers done socket stretch) :
    Sound servers done socket (finish config uninitialised address socket stretch) := by
  unfold finish
  cases returned : stretch.progress with
  | closing old slot => exact sound
  | writing slot => exact sound
  | returned =>
      simp only
      split
      · apply sound.next returned
        · intro id object connected
          exact Or.inl (connectionOf_insert stretch.servers _ id _ object connected)
        · intro id member
          simp only at member
          split at member
          · rename_i missing
            rcases List.mem_append.mp member with before | here
            · exact Or.inl before
            · rw [List.mem_singleton.mp here]
              exact Or.inr (connectionOf_insert_new stretch.servers _ _ socket rfl
                (Option.isNone_iff_eq_none.mp missing))
          · exact Or.inl member
        · exact grows_insert stretch.servers _ _
        · exact fun _ impossible => by cases impossible
      · exact sound

theorem startCall_sound (config : WorldConfig) (servers : CServerList) (done : List Nat)
    (socket : Nat) (request : BindRequest) :
    Sound servers done socket (startCall config servers socket request) := by
  cases request with
  | byId uninitialised id actualAddress actualPort =>
      exact byIdStart_sound config servers done uninitialised id socket actualAddress actualPort
  | byAddress uninitialised address =>
      apply finish_sound
      apply scan_sound servers done address socket servers.entries _ servers.ascending
      · exact fun entry member => servers.find?_of_mem entry.1 entry.2 member
      · rfl
      · constructor
        · exact fun _ _ connected => Or.inl connected
        · exact List.forall_mem_nil _
        · exact fun _ known => known
        · exact fun _ impossible => by cases impossible

theorem write_sound (servers : CServerList) (done : List Nat) (slot : ServerId) (socket : Nat)
    (change : WorldServer → WorldServer) (connects : ∀ server, (change server).s = some socket)
    (present : (servers.find? slot).isSome = true)
    (free : ∀ other, connectionOf servers slot = some other → other ∈ done) :
    Sound servers done socket ⟨servers.modify slot change, [slot], slot, .returned⟩ := by
  constructor
  · exact keeps_write servers done slot change _ rfl free
  · intro id member
    rw [List.mem_singleton.mp member]
    exact Or.inl (connectionOf_connect servers slot socket change connects present)
  · exact grows_modify servers slot change
  · exact fun _ impossible => by cases impossible

theorem resumeCall_sound (config : WorldConfig) (servers : CServerList) (done : List Nat)
    (slot : ServerId) (socket : Nat) (request : BindRequest)
    (present : (servers.find? slot).isSome = true)
    (free : ∀ other, connectionOf servers slot = some other → other ∈ done) :
    Sound servers done socket (resumeCall config servers slot socket request) := by
  cases request with
  | byId uninitialised id actualAddress actualPort =>
      exact write_sound servers done slot socket _ (fun _ => rfl) present free
  | byAddress uninitialised address =>
      apply finish_sound
      apply scan_sound
      · exact (servers.modify slot (connect socket)).ascending.filter _
      · intro entry member
        exact OrderedMap.find?_of_mem _ entry.1 entry.2 (List.mem_filter.mp member).1
      · rfl
      · exact write_sound servers done slot socket _ (fun _ => rfl) present free

/-- The invariant of a run: every connection ever bound is accounted for, and
the entry a call has in hand exists. -/
structure Held (state : Rebinds) : Prop where
  accounted : Accounted state
  slots : ∀ socket call slot, state.calls socket = some call → slotOf call.progress = some slot →
    (state.servers.find? slot).isSome = true

/-- What a locked stretch of a call that is not about to close anything leaves. -/
theorem Held.afterStretch {state : Rebinds} (held : Held state) (socket : Nat)
    (request : BindRequest) (stretch : Stretch)
    (sound : Sound state.servers (state.closed ++ state.removed) socket stretch)
    (idle : ∀ call old slot, state.calls socket = some call → call.progress ≠ .closing old slot) :
    Held (state.afterStretch socket request stretch) := by
  have own : (state.afterStretch socket request stretch).calls socket =
      some ⟨request, stretch.progress⟩ := if_pos rfl
  have elsewhere : ∀ other, other ≠ socket →
      (state.afterStretch socket request stretch).calls other = state.calls other :=
    fun other differs => if_neg differs
  have closing : ∀ object slot, stretch.progress = .closing object slot →
      AboutToClose (state.afterStretch socket request stretch) object :=
    fun object slot progress => ⟨socket, _, slot, own, progress⟩
  constructor
  · intro object id member
    rcases List.mem_append.mp member with before | here
    · rcases held.accounted object id before with settled | ⟨other, call, slot, called, progress⟩
      · rcases settled with connected | closed | removed
        · rcases sound.keeps id object connected with kept | ⟨slot, progress⟩ | ended
          · exact Or.inl (Or.inl kept)
          · exact Or.inr (closing object slot progress)
          · rcases List.mem_append.mp ended with closed | removed
            · exact Or.inl (Or.inr (Or.inl closed))
            · exact Or.inl (Or.inr (Or.inr removed))
        · exact Or.inl (Or.inr (Or.inl closed))
        · exact Or.inl (Or.inr (Or.inr removed))
      · have differs : other ≠ socket := by
          intro same
          rw [same] at called
          exact idle call object slot called progress
        exact Or.inr ⟨other, call, slot, (elsewhere other differs).trans called, progress⟩
    · obtain ⟨taken, inside, same⟩ := List.mem_map.mp here
      obtain ⟨sameObject, sameId⟩ := Prod.mk.inj same
      rw [← sameObject, ← sameId]
      rcases sound.binds taken inside with connected | ⟨slot, progress⟩
      · exact Or.inl (Or.inl connected)
      · exact Or.inr (closing socket slot progress)
  · intro other call slot called inHand
    by_cases same : other = socket
    · rw [same, own] at called
      rw [← Option.some.inj called] at inHand
      exact sound.slot slot inHand
    · rw [elsewhere other same] at called
      exact sound.grows slot (held.slots other call slot called inHand)

theorem Held.close {state : Rebinds} (held : Held state) (socket old : Nat) (slot : ServerId)
    (call : BindCall) (called : state.calls socket = some call)
    (progress : call.progress = .closing old slot) :
    Held { state.setCall socket ⟨call.request, .writing slot⟩ with
      closed := old :: state.closed } := by
  constructor
  · intro object id member
    rcases held.accounted object id member with settled | ⟨other, pending, place, found, closing⟩
    · rcases settled with connected | closed | removed
      · exact Or.inl (Or.inl connected)
      · exact Or.inl (Or.inr (Or.inl (List.mem_cons_of_mem old closed)))
      · exact Or.inl (Or.inr (Or.inr removed))
    · by_cases same : other = socket
      · rw [same, called, Option.some.injEq] at found
        rw [← found, progress, BindProgress.closing.injEq] at closing
        rw [closing.1]
        exact Or.inl (Or.inr (Or.inl List.mem_cons_self))
      · exact Or.inr ⟨other, pending, place, (if_neg same).trans found, closing⟩
  · intro other pending place found inHand
    by_cases same : other = socket
    · have isCall := (if_pos same).symm.trans found
      rw [← Option.some.inj isCall] at inHand
      rw [← Option.some.inj inHand]
      exact held.slots socket call slot called (by rw [progress]; rfl)
    · exact held.slots other pending place ((if_neg same).symm.trans found) inHand

theorem holdsAnywhere_of_connectionOf (servers : CServerList) (id : ServerId) (object : Nat)
    (connected : connectionOf servers id = some object) :
    holdsAnywhere servers object = true := by
  obtain ⟨server, found, holds⟩ := (connectionOf_eq_some servers id object).mp connected
  apply List.any_eq_true.mpr
  exact ⟨(id, server), servers.mem_of_find? id server found, beq_iff_eq.mpr holds⟩

theorem Held.remove {config : WorldConfig} {state next : Rebinds} (held : Held state)
    (socket : Nat) (stepped : step config state (.removeSocket socket) = some next) :
    Held next := by
  cases stepped
  constructor
  · intro object id member
    rcases held.accounted object id member with settled | pending
    · left
      rcases settled with connected | closed | removed
      · by_cases same : object = socket
        · right
          right
          rw [same] at connected
          simp only [holdsAnywhere_of_connectionOf state.servers id socket connected, if_true,
            same, List.mem_cons_self]
        · left
          rw [connectionOf_removeSocket, if_neg, connected]
          intro isSocket
          rw [connected] at isSocket
          exact same (Option.some.inj isSocket)
      · exact Or.inr (Or.inl closed)
      · right
        right
        simp only
        split
        · exact List.mem_cons_of_mem socket removed
        · exact removed
    · exact Or.inr pending
  · intro other call slot called inHand
    rw [removeSocket_find?, Option.isSome_map]
    exact held.slots other call slot called inHand

theorem Held.step {config : WorldConfig} {state next : Rebinds} (held : Held state)
    (event : RebindEvent) (free : SlotFree state event)
    (stepped : Rebinds.step config state event = some next) : Held next := by
  cases event with
  | call socket request =>
      cases called : state.calls socket with
      | some call =>
          simp only [Rebinds.step, called] at stepped
          cases stepped
      | none =>
          simp only [Rebinds.step, called] at stepped
          cases stepped
          apply held.afterStretch socket request _
            (startCall_sound config state.servers _ socket request)
          intro call old slot found
          rw [called] at found
          cases found
  | proceed socket =>
      cases called : state.calls socket with
      | none =>
          simp only [Rebinds.step, called] at stepped
          cases stepped
      | some call =>
          cases progress : call.progress with
          | closing old slot =>
              simp only [Rebinds.step, called, progress] at stepped
              cases stepped
              exact held.close socket old slot call called progress
          | writing slot =>
              simp only [Rebinds.step, called, progress] at stepped
              cases stepped
              apply held.afterStretch
              · apply resumeCall_sound
                · exact held.slots socket call slot called (by rw [progress]; rfl)
                · intro other connected
                  exact List.mem_append.mpr (free call slot other called progress connected)
              · intro other old place found
                rw [called, Option.some.injEq] at found
                rw [← found, progress]
                exact fun impossible => by cases impossible
          | returned =>
              simp only [Rebinds.step, called, progress] at stepped
              cases stepped
  | removeSocket socket => exact held.remove socket stepped

theorem Held.noneForgotten {state : Rebinds} (held : Held state) : NoneForgotten state := by
  intro allReturned object id member
  rcases held.accounted object id member with settled | ⟨socket, call, slot, called, closing⟩
  · exact settled
  · rw [allReturned socket call called] at closing
    cases closing

theorem start_held : Held start where
  accounted _ _ impossible := by cases impossible
  slots _ _ _ impossible := by cases impossible

/-- Whatever the interleaving, no displaced connection is forgotten as long as
no call that takes the lock again overwrites another connection. -/
theorem none_forgotten_while_free (config : WorldConfig) (events : List RebindEvent)
    (free : (machine config).Guarded SlotFree start events) :
    (machine config).Throughout NoneForgotten start events :=
  (machine config).throughout_of_guarded Held NoneForgotten SlotFree
    (fun _ event _ held free stepped => held.step event free stepped)
    (fun _ held => held.noneForgotten)
    events start start_held free

/-- A binding that closes the connection before it and finds the entry still empty. -/
theorem undisturbed_rebind_settled :
    (machine ⟨true, true, 2104⟩).Throughout NoneForgotten start
      [.call 0 (.byId WorldServer.cleared ⟨1⟩ ⟨10, 0, 0, 7⟩ 7777),
        .call 1 (.byId WorldServer.cleared ⟨1⟩ ⟨10, 0, 0, 7⟩ 7777),
        .proceed 1, .proceed 1] := by
  apply none_forgotten_while_free _ _
  intro next same
  cases same
  constructor
  · trivial
  intro next same
  cases same
  constructor
  · trivial
  intro next same
  cases same
  constructor
  · intro call slot other called progress
    cases called
    cases progress
  intro next same
  cases same
  constructor
  · intro call slot other called progress connected
    cases called
    cases progress
    cases connected
  · trivial

/-- One call closes the connection it found while another one binds its own to
the empty entry, which the first then overwrites. -/
theorem rebind_forgets_connection :
    ¬ ∀ (config : WorldConfig) (events : List RebindEvent),
      (machine config).Throughout NoneForgotten start events := by
  intro claimed
  have run := claimed ⟨true, true, 2104⟩
    [.call 0 (.byId WorldServer.cleared ⟨1⟩ ⟨10, 0, 0, 7⟩ 7777),
      .call 1 (.byId WorldServer.cleared ⟨1⟩ ⟨10, 0, 0, 7⟩ 7777),
      .call 2 (.byId WorldServer.cleared ⟨1⟩ ⟨10, 0, 0, 7⟩ 7777),
      .proceed 1, .proceed 1]
  have final : NoneForgotten _ := ((((run.2 _ rfl).2 _ rfl).2 _ rfl).2 _ rfl).2 _ rfl
  have settled := final ?_ 2 ⟨1⟩ (by decide)
  · rcases settled with connected | closed | removed
    · cases connected
    · cases closed with | tail _ impossible => cases impossible
    · cases removed
  · intro socket call called
    match socket with
    | 0 => cases called; rfl
    | 1 => cases called; rfl
    | 2 => cases called; rfl
    | _ + 3 => cases called

end Rebinds

end AuthServer
