/-
Accepting and closing client connections under the per-address limit.

`CIPAccessLimit` keeps one map for each of 16 locks; `CIOServerEx` keeps the
open connections by handle, and the reporter counts them.  A `std::map` is a
partial function here.  The list of open connections is what the three are
compared with.  The system hands out a handle for a new connection only after
the connection that had it was closed; `OnClose` runs before `closesocket`.
-/

import AuthServer.InAddr
import AuthServer.Lib.EventRuns
import Mathlib.Data.List.Perm.Basic
import Mathlib.Logic.Function.Basic

set_option autoImplicit false

namespace AuthServer

abbrev AccessMaps := Fin 16 → UInt32 → Option Int

namespace CIPAccessLimit

def getIPLockValue (ip : InAddr) : Fin 16 :=
  let value := ip.b1.toNat + ip.b2.toNat + ip.b3.toNat + ip.b4.toNat
  let test := value &&& 15
  if inside : test ≥ 16 then 15 else ⟨test, Nat.lt_of_not_ge inside⟩

def entry (maps : AccessMaps) (ip : InAddr) : Option Int :=
  maps (getIPLockValue ip) ip.sAddr

def setEntry (maps : AccessMaps) (ip : InAddr) (count : Option Int) : AccessMaps :=
  Function.update maps (getIPLockValue ip)
    (Function.update (maps (getIPLockValue ip)) ip.sAddr count)

def setAccessIP (ipAccessLimit : Int) (maps : AccessMaps) (ip : InAddr) :
    Bool × AccessMaps :=
  if ipAccessLimit ≤ 0 then (true, maps)
  else
    match entry maps ip with
    | some count =>
        if count < ipAccessLimit then (true, setEntry maps ip (some (count + 1)))
        else (false, maps)
    | none => (true, setEntry maps ip (some 1))

def delAccessIP (ipAccessLimit : Int) (maps : AccessMaps) (ip : InAddr) :
    Bool × AccessMaps :=
  if ipAccessLimit ≤ 0 then (true, maps)
  else
    match entry maps ip with
    | some count =>
        if count > 1 then (true, setEntry maps ip (some (count - 1)))
        else (true, setEntry maps ip none)
    | none => (false, maps)

def entryFor (count : Nat) : Option Int := if count = 0 then none else some count

structure Tracks (maps : AccessMaps) (addrs : List InAddr) : Prop where
  own : ∀ ip, entry maps ip = entryFor (addrs.count ip)
  elsewhere : ∀ index ip, index ≠ getIPLockValue ip → maps index ip.sAddr = none

theorem setEntry_same (maps : AccessMaps) (ip : InAddr) (count : Option Int) :
    entry (setEntry maps ip count) ip = count := by
  simp only [entry, setEntry, Function.update_self]

theorem setEntry_other (maps : AccessMaps) (ip other : InAddr) (count : Option Int)
    (index : Fin 16) (differs : other ≠ ip) :
    setEntry maps ip count index other.sAddr = maps index other.sAddr := by
  have key : other.sAddr ≠ ip.sAddr := fun same => differs (InAddr.sAddr_injective _ _ same)
  unfold setEntry
  by_cases same : index = getIPLockValue ip
  · rw [same, Function.update_self, Function.update_of_ne key]
  · rw [Function.update_of_ne same]

theorem Tracks.setEntry {maps : AccessMaps} {addrs : List InAddr} (tracks : Tracks maps addrs)
    (ip : InAddr) (others : List InAddr)
    (same : ∀ other, other ≠ ip → others.count other = addrs.count other) :
    Tracks (CIPAccessLimit.setEntry maps ip (entryFor (others.count ip))) others := by
  constructor
  · intro other
    by_cases isIp : other = ip
    · subst isIp
      exact setEntry_same _ _ _
    · rw [entry, setEntry_other maps ip other _ _ isIp, same other isIp]
      exact tracks.own other
  · intro index other outside
    by_cases isIp : other = ip
    · subst isIp
      rw [CIPAccessLimit.setEntry, Function.update_of_ne outside]
      exact tracks.elsewhere index other outside
    · rw [setEntry_other maps ip other _ _ isIp]
      exact tracks.elsewhere index other outside

theorem Tracks.perm {maps : AccessMaps} {addrs : List InAddr} (tracks : Tracks maps addrs)
    (others : List InAddr) (same : addrs.Perm others) : Tracks maps others :=
  ⟨fun ip => by rw [tracks.own, same.count_eq], tracks.elsewhere⟩

/-- An address is refused exactly at its limit, and then nothing changes. -/
theorem setAccessIP_spec (ipAccessLimit : Int) (maps : AccessMaps) (addrs : List InAddr)
    (ip : InAddr) (positive : 0 < ipAccessLimit) (tracks : Tracks maps addrs)
    (within : (addrs.count ip : Int) ≤ ipAccessLimit) :
    (setAccessIP ipAccessLimit maps ip = (false, maps) ∧
        (addrs.count ip : Int) = ipAccessLimit) ∨
      (∃ next, setAccessIP ipAccessLimit maps ip = (true, next) ∧
        (addrs.count ip : Int) < ipAccessLimit ∧ Tracks next (ip :: addrs)) := by
  have limited : ¬ ipAccessLimit ≤ 0 := by omega
  have others : ∀ other, other ≠ ip → (ip :: addrs).count other = addrs.count other :=
    fun other differs => List.count_cons_of_ne (Ne.symm differs)
  have added := tracks.setEntry ip (ip :: addrs) others
  rw [List.count_cons_self, entryFor, if_neg (Nat.succ_ne_zero _)] at added
  have own := tracks.own ip
  unfold setAccessIP entryFor at *
  rw [if_neg limited]
  by_cases none_ : addrs.count ip = 0
  · rw [if_pos none_] at own
    rw [none_] at added within
    refine Or.inr ⟨_, ?_, by rw [none_]; exact positive, added⟩
    rw [own]
    rfl
  · rw [if_neg none_] at own
    rw [own]
    have next : ((addrs.count ip + 1 : Nat) : Int) = (addrs.count ip : Int) + 1 := rfl
    rw [next] at added
    by_cases below : (addrs.count ip : Int) < ipAccessLimit
    · refine Or.inr ⟨setEntry maps ip (some ((addrs.count ip : Int) + 1)), ?_, below, added⟩
      simp only [if_pos below]
    · refine Or.inl ⟨by simp only [if_neg below], ?_⟩
      omega

theorem delAccessIP_spec (ipAccessLimit : Int) (maps : AccessMaps) (addrs : List InAddr)
    (ip : InAddr) (positive : 0 < ipAccessLimit) (tracks : Tracks maps (ip :: addrs)) :
    Tracks (delAccessIP ipAccessLimit maps ip).2 addrs := by
  have limited : ¬ ipAccessLimit ≤ 0 := by omega
  have others : ∀ other, other ≠ ip → addrs.count other = (ip :: addrs).count other :=
    fun other differs => (List.count_cons_of_ne (Ne.symm differs)).symm
  have removed := tracks.setEntry ip addrs others
  have own := tracks.own ip
  rw [List.count_cons_self, entryFor, if_neg (Nat.succ_ne_zero _)] at own
  unfold delAccessIP
  rw [if_neg limited, own]
  by_cases last : addrs.count ip = 0
  · have single : ¬ ((addrs.count ip + 1 : Nat) : Int) > 1 := by omega
    rw [entryFor, if_pos last] at removed
    simp only [if_neg single]
    exact removed
  · have several : ((addrs.count ip + 1 : Nat) : Int) > 1 := by omega
    have before : ((addrs.count ip + 1 : Nat) : Int) - 1 = (addrs.count ip : Int) := by omega
    rw [entryFor, if_neg last] at removed
    simp only [if_pos several, before]
    exact removed

end CIPAccessLimit

structure ClientConnection where
  object : Nat
  handle : Nat
  addr : InAddr
  deriving DecidableEq, Repr

structure AcceptSide where
  socketCount : Int
  accessMaps : AccessMaps
  socketmap : Nat → Option Nat
  connections : List ClientConnection
  nextObject : Nat

inductive AcceptEvent where
  | accept (socketLimit : Int) (handle : Nat) (addr : InAddr)
  | close (connection : Nat)

namespace AcceptSide

open CIPAccessLimit

def start : AcceptSide where
  socketCount := 0
  accessMaps := fun _ _ => none
  socketmap := fun _ => none
  connections := []
  nextObject := 0

def openFrom (side : AcceptSide) (ip : InAddr) : Nat :=
  (side.connections.map ClientConnection.addr).count ip

/-- `map::insert` keeps an entry that is already there. -/
def insertSocket (socketmap : Nat → Option Nat) (handle object : Nat) : Nat → Option Nat :=
  match socketmap handle with
  | some _ => socketmap
  | none => Function.update socketmap handle (some object)

/-- `CIOServerEx::CreateSocket`, with the constructor's count; `none` is NULL. -/
def createSocket (ipAccessLimit : Int) (side : AcceptSide) (socketLimit : Int)
    (handle : Nat) (addr : InAddr) : Option ClientConnection × AcceptSide :=
  if side.socketCount ≥ socketLimit then (none, side)
  else
    match setAccessIP ipAccessLimit side.accessMaps addr with
    | (false, maps) => (none, { side with accessMaps := maps })
    | (true, maps) =>
        let connection : ClientConnection := ⟨side.nextObject, handle, addr⟩
        (some connection,
          { side with
            socketCount := side.socketCount + 1
            accessMaps := maps
            socketmap := insertSocket side.socketmap handle connection.object
            nextObject := side.nextObject + 1 })

/-- `CSocketServerEx::OnClose` of an open connection. -/
def onClose (ipAccessLimit : Int) (side : AcceptSide) (connection : ClientConnection) :
    AcceptSide :=
  { side with
    socketCount := side.socketCount - 1
    socketmap := Function.update side.socketmap connection.handle none
    accessMaps := (delAccessIP ipAccessLimit side.accessMaps connection.addr).2 }

def opened (outcome : Option ClientConnection × AcceptSide) : AcceptSide :=
  { outcome.2 with connections := outcome.1.toList ++ outcome.2.connections }

def closed (side : AcceptSide) (index : Nat) : AcceptSide :=
  { side with connections := side.connections.eraseIdx index }

def step (ipAccessLimit : Int) (side : AcceptSide) : AcceptEvent → Option AcceptSide
  | .accept socketLimit handle addr =>
      if handle ∈ side.connections.map ClientConnection.handle then none
      else some (opened (side.createSocket ipAccessLimit socketLimit handle addr))
  | .close connection =>
      (side.connections[connection]?).map fun object =>
        (side.onClose ipAccessLimit object).closed connection

def machine (ipAccessLimit : Int) : EventRuns.Machine AcceptSide AcceptEvent :=
  ⟨step ipAccessLimit⟩

/-- The three structures agree with the open connections. -/
structure Agrees (ipAccessLimit : Int) (side : AcceptSide) : Prop where
  tracks : Tracks side.accessMaps (side.connections.map ClientConnection.addr)
  within : ∀ ip, (side.openFrom ip : Int) ≤ ipAccessLimit
  counted : side.socketCount = side.connections.length
  listed : ∀ handle object, side.socketmap handle = some object ↔
    ∃ connection ∈ side.connections,
      connection.handle = handle ∧ connection.object = object
  distinct : (side.connections.map ClientConnection.handle).Nodup

/-- An accept is refused exactly at one of the limits, and then changes nothing. -/
def RefusesExactly (ipAccessLimit : Int) (side : AcceptSide) : Prop :=
  ∀ socketLimit handle addr,
    ((side.createSocket ipAccessLimit socketLimit handle addr).1 = none ↔
      socketLimit ≤ side.socketCount ∨ (side.openFrom addr : Int) = ipAccessLimit) ∧
    ((side.createSocket ipAccessLimit socketLimit handle addr).1 = none →
      (side.createSocket ipAccessLimit socketLimit handle addr).2 = side)

theorem Agrees.refusesExactly {ipAccessLimit : Int} {side : AcceptSide}
    (agrees : side.Agrees ipAccessLimit) (positive : 0 < ipAccessLimit) :
    side.RefusesExactly ipAccessLimit := by
  intro socketLimit handle addr
  unfold createSocket
  by_cases full : side.socketCount ≥ socketLimit
  · rw [if_pos full]
    exact ⟨⟨fun _ => Or.inl full, fun _ => rfl⟩, fun _ => rfl⟩
  · rw [if_neg full]
    rcases setAccessIP_spec ipAccessLimit side.accessMaps _ addr positive agrees.tracks
      (agrees.within addr) with ⟨refused, atLimit⟩ | ⟨maps, taken, below, _⟩
    · rw [refused]
      exact ⟨⟨fun _ => Or.inr atLimit, fun _ => rfl⟩, fun _ => rfl⟩
    · rw [taken]
      refine ⟨⟨nofun, ?_⟩, nofun⟩
      intro given
      rcases given with under | atLimit
      · exact absurd under full
      · exact absurd atLimit (Int.ne_of_lt below)

theorem accept_agrees (ipAccessLimit socketLimit : Int) (side : AcceptSide) (handle : Nat)
    (addr : InAddr) (positive : 0 < ipAccessLimit) (agrees : side.Agrees ipAccessLimit)
    (fresh : handle ∉ side.connections.map ClientConnection.handle) :
    (opened (side.createSocket ipAccessLimit socketLimit handle addr)).Agrees ipAccessLimit := by
  unfold createSocket
  split
  · exact agrees
  · rcases setAccessIP_spec ipAccessLimit side.accessMaps _ addr positive agrees.tracks
      (agrees.within addr) with ⟨refused, _⟩ | ⟨maps, taken, below, tracks⟩
    · rw [refused]
      exact agrees
    · rw [taken]
      have unlisted : side.socketmap handle = none := by
        cases found : side.socketmap handle with
        | none => rfl
        | some object =>
            obtain ⟨connection, member, isHandle, _⟩ := (agrees.listed handle object).mp found
            exact absurd (List.mem_map.mpr ⟨connection, member, isHandle⟩) fresh
      refine ⟨tracks, ?_, ?_, ?_, List.nodup_cons.mpr ⟨fresh, agrees.distinct⟩⟩
      · intro ip
        change (((addr :: side.connections.map ClientConnection.addr).count ip : Nat) : Int) ≤ _
        by_cases same : ip = addr
        · subst same
          rw [List.count_cons_self]
          omega
        · rw [List.count_cons_of_ne (Ne.symm same)]
          exact agrees.within ip
      · change side.socketCount + 1 = ((side.connections.length + 1 : Nat) : Int)
        rw [agrees.counted]
        rfl
      · intro other object
        simp only [insertSocket, unlisted]
        change Function.update side.socketmap handle (some side.nextObject) other = some object ↔
          ∃ connection ∈ (⟨side.nextObject, handle, addr⟩ : ClientConnection) :: side.connections,
            connection.handle = other ∧ connection.object = object
        by_cases same : other = handle
        · subst same
          rw [Function.update_self]
          constructor
          · intro isObject
            exact ⟨_, List.mem_cons_self, rfl, Option.some.inj isObject⟩
          · intro given
            obtain ⟨connection, member, isHandle, isObject⟩ := given
            rcases List.mem_cons.mp member with rfl | old
            · exact congrArg some isObject
            · exact absurd (List.mem_map.mpr ⟨connection, old, isHandle⟩) fresh
        · rw [Function.update_of_ne same, agrees.listed]
          constructor
          · intro given
            obtain ⟨connection, member, both⟩ := given
            exact ⟨connection, List.mem_cons_of_mem _ member, both⟩
          · intro given
            obtain ⟨connection, member, isHandle, isObject⟩ := given
            rcases List.mem_cons.mp member with rfl | old
            · exact absurd isHandle.symm same
            · exact ⟨connection, old, isHandle, isObject⟩

theorem close_agrees (ipAccessLimit : Int) (side : AcceptSide) (index : Nat)
    (connection : ClientConnection) (positive : 0 < ipAccessLimit)
    (agrees : side.Agrees ipAccessLimit)
    (found : side.connections[index]? = some connection) :
    ((side.onClose ipAccessLimit connection).closed index).Agrees ipAccessLimit := by
  obtain ⟨inside, same⟩ := List.getElem?_eq_some_iff.mp found
  have perm : (connection :: side.connections.eraseIdx index).Perm side.connections := by
    have erased := List.getElem_cons_eraseIdx_perm inside
    rw [same] at erased
    exact erased
  have addrs := (perm.map ClientConnection.addr).symm
  have handles := (perm.map ClientConnection.handle).nodup_iff.mpr agrees.distinct
  rw [List.map_cons, List.nodup_cons] at handles
  refine ⟨delAccessIP_spec ipAccessLimit _ _ _ positive (agrees.tracks.perm _ addrs),
    ?_, ?_, ?_, handles.2⟩
  · intro ip
    have before := agrees.within ip
    unfold openFrom at before
    rw [addrs.count_eq, List.map_cons] at before
    have fewer : ((side.connections.eraseIdx index).map ClientConnection.addr).count ip ≤
        (connection.addr :: (side.connections.eraseIdx index).map ClientConnection.addr).count ip :=
      (List.sublist_cons_self _ _).count_le ip
    change ((((side.connections.eraseIdx index).map ClientConnection.addr).count ip : Nat) : Int) ≤ _
    omega
  · have length := perm.length_eq
    rw [List.length_cons] at length
    change side.socketCount - 1 = ((side.connections.eraseIdx index).length : Int)
    rw [agrees.counted]
    omega
  · intro handle object
    change Function.update side.socketmap connection.handle none handle = some object ↔
      ∃ other ∈ side.connections.eraseIdx index, other.handle = handle ∧ other.object = object
    by_cases isHandle : handle = connection.handle
    · subst isHandle
      rw [Function.update_self]
      apply iff_of_false nofun
      intro given
      obtain ⟨other, member, sameHandle, _⟩ := given
      exact handles.1 (List.mem_map.mpr ⟨other, member, sameHandle⟩)
    · rw [Function.update_of_ne isHandle, agrees.listed]
      constructor
      · intro given
        obtain ⟨other, member, isOther, isObject⟩ := given
        rcases List.mem_cons.mp (perm.mem_iff.mpr member) with rfl | kept
        · exact absurd isOther.symm isHandle
        · exact ⟨other, kept, isOther, isObject⟩
      · intro given
        obtain ⟨other, member, both⟩ := given
        exact ⟨other, perm.mem_iff.mp (List.mem_cons_of_mem _ member), both⟩

theorem step_agrees (ipAccessLimit : Int) (side next : AcceptSide) (event : AcceptEvent)
    (positive : 0 < ipAccessLimit) (agrees : side.Agrees ipAccessLimit)
    (stepped : side.step ipAccessLimit event = some next) : next.Agrees ipAccessLimit := by
  cases event with
  | accept socketLimit handle addr =>
      simp only [step] at stepped
      split at stepped
      · contradiction
      · rename_i fresh
        cases stepped
        exact accept_agrees ipAccessLimit socketLimit side handle addr positive agrees fresh
  | close index =>
      obtain ⟨connection, found, same⟩ := Option.map_eq_some_iff.mp stepped
      subst same
      exact close_agrees ipAccessLimit side index connection positive agrees found

theorem start_agrees (ipAccessLimit : Int) (positive : 0 < ipAccessLimit) :
    start.Agrees ipAccessLimit := by
  refine ⟨⟨fun _ => rfl, fun _ _ _ => rfl⟩, fun ip => Int.le_of_lt positive, rfl,
    fun handle object => iff_of_false nofun ?_, List.nodup_nil⟩
  intro given
  obtain ⟨connection, member, _⟩ := given
  contradiction

/-- Between callbacks the access maps, the reporter's count and the socket map
say the same as the open connections, and accepts are refused at the limits
and nowhere else. -/
theorem accept_limits_exact (ipAccessLimit : Int) (positive : 0 < ipAccessLimit)
    (events : List AcceptEvent) :
    (machine ipAccessLimit).Throughout
      (fun side => side.Agrees ipAccessLimit ∧ side.RefusesExactly ipAccessLimit)
      start events :=
  (machine ipAccessLimit).throughout_of_guarded (Agrees ipAccessLimit) _ (fun _ _ => True)
    (fun side event next agrees _ stepped =>
      step_agrees ipAccessLimit side next event positive agrees stepped)
    (fun _ agrees => ⟨agrees, agrees.refusesExactly positive⟩) events start
    (start_agrees ipAccessLimit positive)
    ((machine ipAccessLimit).guarded_of_step _ (fun _ _ _ _ => trivial) events start)

/-- One address at a limit of one: accepted, refused, closed and accepted again. -/
theorem accept_limit_one :
    (machine 1).Throughout (fun side => side.Agrees 1 ∧ side.RefusesExactly 1) start
      [.accept 10 400 ⟨10, 0, 0, 1⟩, .accept 10 404 ⟨10, 0, 0, 1⟩, .close 0,
        .accept 10 400 ⟨10, 0, 0, 1⟩] :=
  accept_limits_exact 1 (by decide) _

end AcceptSide

end AuthServer
