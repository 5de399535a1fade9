/-
Accepting and closing client connections on several worker threads.

`CreateSocket` and `CloseSocket` are cut where one thread can overtake another:
between the check of `SocketLimit`, `SetAccessIP`, the constructor's increment and
the insertion into `socketmap`, and between the steps of `OnClose` and
`closesocket`.  The system gives a handle away again only after `closesocket`.
The list of connections is a history variable.
-/

import AuthServer.AccessLimit
import AuthServer.Lib.Processes
import AuthServer.Lib.Simulations
import Mathlib.Algebra.Order.Group.Int

set_option autoImplicit false

namespace AuthServer

open Processes CIPAccessLimit

inductive RegistryStage where
  | idle
  | accepted (handle : Nat) (addr : InAddr)
  | belowLimit (handle : Nat) (addr : InAddr)
  | admitted (handle : Nat) (addr : InAddr)
  | refused (handle : Nat)
  | built (connection : ClientConnection)
  | closing (connection : ClientConnection)
  | uncounted (connection : ClientConnection)
  | removed (connection : ClientConnection)
  | released (connection : ClientConnection)

namespace RegistryStage

def handle? : RegistryStage → Option Nat
  | .idle => none
  | .accepted handle _ | .belowLimit handle _ | .admitted handle _ | .refused handle =>
      some handle
  | .built connection | .closing connection | .uncounted connection | .removed connection
  | .released connection => some connection.handle

def charged? : RegistryStage → Option InAddr
  | .admitted _ addr => some addr
  | .built connection | .closing connection | .uncounted connection | .removed connection =>
      some connection.addr
  | _ => none

def listed? : RegistryStage → Option ClientConnection
  | .closing connection | .uncounted connection => some connection
  | _ => none

def counted : RegistryStage → Nat
  | .built _ | .closing _ => 1
  | _ => 0

def passing : RegistryStage → Nat
  | .belowLimit _ _ | .admitted _ _ => 1
  | _ => 0

end RegistryStage

structure ClientRegistry where
  opened : Nat → Bool
  accessMaps : AccessMaps
  socketmap : Nat → Option Nat
  socketCount : Int
  nextObject : Nat
  connections : List ClientConnection
  threads : List RegistryStage

inductive RegistryEvent where
  | accept (i : Nat) (handle : Nat) (addr : InAddr)
  | checkLimit (i : Nat)
  | setAccessIP (i : Nat)
  | allocate (i : Nat)
  | insert (i : Nat)
  | refuse (i : Nat)
  | close (i : Nat) (index : Nat)
  | uncount (i : Nat)
  | removeSocket (i : Nat)
  | delAccessIP (i : Nat)
  | closesocket (i : Nat)

namespace ClientRegistry

def start (workers : Nat) : ClientRegistry where
  opened := fun _ => false
  accessMaps := fun _ _ => none
  socketmap := fun _ => none
  socketCount := 0
  nextObject := 0
  connections := []
  threads := List.replicate workers .idle

def goto (registry : ClientRegistry) (i : Nat) (stage : RegistryStage) : ClientRegistry :=
  { registry with threads := registry.threads.set i stage }

section Machine

variable (socketLimit ipAccessLimit : Int)

def step (registry : ClientRegistry) : RegistryEvent → Option ClientRegistry
  | .accept i handle addr =>
      match registry.threads[i]? with
      | some .idle =>
          if registry.opened handle then none
          else
            some ({ registry with opened := Function.update registry.opened handle true }.goto i
              (.accepted handle addr))
      | _ => none
  | .checkLimit i =>
      match registry.threads[i]? with
      | some (.accepted handle addr) =>
          if registry.socketCount ≥ socketLimit then some (registry.goto i (.refused handle))
          else some (registry.goto i (.belowLimit handle addr))
      | _ => none
  | .setAccessIP i =>
      match registry.threads[i]? with
      | some (.belowLimit handle addr) =>
          match CIPAccessLimit.setAccessIP ipAccessLimit registry.accessMaps addr with
          | (false, maps) =>
              some ({ registry with accessMaps := maps }.goto i (.refused handle))
          | (true, maps) =>
              some ({ registry with accessMaps := maps }.goto i (.admitted handle addr))
      | _ => none
  | .allocate i =>
      match registry.threads[i]? with
      | some (.admitted handle addr) =>
          some ({ registry with
            socketCount := registry.socketCount + 1
            nextObject := registry.nextObject + 1 }.goto i
              (.built ⟨registry.nextObject, handle, addr⟩))
      | _ => none
  | .insert i =>
      match registry.threads[i]? with
      | some (.built connection) =>
          some ({ registry with
            socketmap :=
              AcceptSide.insertSocket registry.socketmap connection.handle connection.object
            connections := connection :: registry.connections }.goto i .idle)
      | _ => none
  | .refuse i =>
      match registry.threads[i]? with
      | some (.refused handle) =>
          some ({ registry with opened := Function.update registry.opened handle false }.goto i
            .idle)
      | _ => none
  | .close i index =>
      match registry.threads[i]?, registry.connections[index]? with
      | some .idle, some connection =>
          some ({ registry with connections := registry.connections.eraseIdx index }.goto i
            (.closing connection))
      | _, _ => none
  | .uncount i =>
      match registry.threads[i]? with
      | some (.closing connection) =>
          some ({ registry with socketCount := registry.socketCount - 1 }.goto i
            (.uncounted connection))
      | _ => none
  | .removeSocket i =>
      match registry.threads[i]? with
      | some (.uncounted connection) =>
          some ({ registry with
            socketmap := Function.update registry.socketmap connection.handle none }.goto i
              (.removed connection))
      | _ => none
  | .delAccessIP i =>
      match registry.threads[i]? with
      | some (.removed connection) =>
          some ({ registry with
            accessMaps :=
              (CIPAccessLimit.delAccessIP ipAccessLimit registry.accessMaps connection.addr).2
            }.goto i (.released connection))
      | _ => none
  | .closesocket i =>
      match registry.threads[i]? with
      | some (.released connection) =>
          some ({ registry with
            opened := Function.update registry.opened connection.handle false }.goto i .idle)
      | _ => none

def machine : EventRuns.Machine ClientRegistry RegistryEvent := ⟨step socketLimit ipAccessLimit⟩

end Machine

/-! ### What the state says about the connections -/

def handles (registry : ClientRegistry) : List Nat :=
  registry.threads.filterMap RegistryStage.handle? ++
    registry.connections.map ClientConnection.handle

def charged (registry : ClientRegistry) : List InAddr :=
  registry.threads.filterMap RegistryStage.charged? ++
    registry.connections.map ClientConnection.addr

def listed (registry : ClientRegistry) : List ClientConnection :=
  registry.threads.filterMap RegistryStage.listed? ++ registry.connections

def HandlesExact (opened : Nat → Bool) (handles : List Nat) : Prop :=
  handles.Nodup ∧ ∀ handle, opened handle = true ↔ handle ∈ handles

def MapExact (socketmap : Nat → Option Nat) (listed : List ClientConnection) : Prop :=
  ∀ handle object, socketmap handle = some object ↔
    ∃ connection ∈ listed, connection.handle = handle ∧ connection.object = object

def AddressesExact (ipAccessLimit : Int) (maps : AccessMaps) (charged : List InAddr) : Prop :=
  Tracks maps charged ∧ ∀ ip, (charged.count ip : Int) ≤ ipAccessLimit

structure Exact (socketLimit ipAccessLimit : Int) (registry : ClientRegistry) : Prop where
  handles : HandlesExact registry.opened registry.handles
  mapped : MapExact registry.socketmap registry.listed
  addresses : 0 < ipAccessLimit →
    AddressesExact ipAccessLimit registry.accessMaps registry.charged
  counted : registry.socketCount =
    registry.connections.length + total RegistryStage.counted registry.threads
  within : registry.socketCount + total RegistryStage.passing registry.threads ≤
    max 0 (socketLimit - 1 + registry.threads.length)

section Lists

variable {opened : Nat → Bool} {handles after : List Nat}

theorem HandlesExact.perm (handlesExact : HandlesExact opened handles)
    (same : after.Perm handles) : HandlesExact opened after :=
  ⟨same.symm.nodup handlesExact.1, fun handle => by rw [handlesExact.2, same.mem_iff]⟩

theorem HandlesExact.take (handlesExact : HandlesExact opened handles) (handle : Nat)
    (closed : ¬ opened handle = true) (taken : after.Perm (handle :: handles)) :
    HandlesExact (Function.update opened handle true) after := by
  have fresh : handle ∉ handles := fun member => closed ((handlesExact.2 handle).mpr member)
  refine HandlesExact.perm ⟨List.nodup_cons.mpr ⟨fresh, handlesExact.1⟩, fun other => ?_⟩ taken
  rw [List.mem_cons]
  by_cases same : other = handle
  · rw [same, Function.update_self]
    exact iff_of_true rfl (Or.inl rfl)
  · rw [Function.update_of_ne same, handlesExact.2, or_iff_right same]

theorem HandlesExact.drop (handlesExact : HandlesExact opened handles) (handle : Nat)
    (dropped : (handle :: after).Perm handles) :
    HandlesExact (Function.update opened handle false) after := by
  obtain ⟨distinct, isOpen⟩ := handlesExact.perm dropped
  obtain ⟨outside, distinct⟩ := List.nodup_cons.mp distinct
  refine ⟨distinct, fun other => ?_⟩
  by_cases same : other = handle
  · rw [same, Function.update_self]
    exact iff_of_false Bool.false_ne_true outside
  · rw [Function.update_of_ne same, isOpen, List.mem_cons, or_iff_right same]

variable {socketmap : Nat → Option Nat} {listed kept : List ClientConnection}

theorem MapExact.perm (mapExact : MapExact socketmap listed) (same : kept.Perm listed) :
    MapExact socketmap kept := by
  intro handle object
  rw [mapExact]
  exact exists_congr fun connection => and_congr_left' same.mem_iff.symm

theorem listed_cons_iff (connection : ClientConnection) (listed : List ClientConnection)
    (handle object : Nat) :
    (∃ other ∈ connection :: listed, other.handle = handle ∧ other.object = object) ↔
      connection.handle = handle ∧ connection.object = object ∨
        ∃ other ∈ listed, other.handle = handle ∧ other.object = object := by
  simp only [List.mem_cons, or_and_right, exists_or, exists_eq_left]

theorem MapExact.insert (mapExact : MapExact socketmap listed) (connection : ClientConnection)
    (fresh : connection.handle ∉ listed.map ClientConnection.handle)
    (inserted : kept.Perm (connection :: listed)) :
    MapExact (AcceptSide.insertSocket socketmap connection.handle connection.object) kept := by
  have unlisted : socketmap connection.handle = none := by
    cases found : socketmap connection.handle with
    | none => rfl
    | some object =>
        obtain ⟨other, member, isHandle, _⟩ := (mapExact connection.handle object).mp found
        exact absurd (List.mem_map.mpr ⟨other, member, isHandle⟩) fresh
  refine MapExact.perm (fun handle object => ?_) inserted
  rw [AcceptSide.insertSocket, unlisted]
  dsimp only
  rw [listed_cons_iff]
  by_cases same : handle = connection.handle
  · rw [same, Function.update_self, ← mapExact connection.handle object, unlisted,
      Option.some.injEq]
    exact ⟨fun isObject => Or.inl ⟨rfl, isObject⟩,
      fun either => (either.resolve_right (Option.some_ne_none object).symm).2⟩
  · rw [Function.update_of_ne same, mapExact]
    exact (or_iff_right fun both => same both.1.symm).symm

theorem MapExact.erase (mapExact : MapExact socketmap listed) (connection : ClientConnection)
    (distinct : (listed.map ClientConnection.handle).Nodup)
    (erased : (connection :: kept).Perm listed) :
    MapExact (Function.update socketmap connection.handle none) kept := by
  have before := mapExact.perm erased
  have apart := (erased.map ClientConnection.handle).symm.nodup distinct
  rw [List.map_cons, List.nodup_cons] at apart
  intro handle object
  by_cases same : handle = connection.handle
  · rw [same, Function.update_self]
    refine iff_of_false nofun ?_
    rintro ⟨other, member, isHandle, _⟩
    exact apart.1 (List.mem_map.mpr ⟨other, member, isHandle⟩)
  · rw [Function.update_of_ne same, before, listed_cons_iff]
    exact or_iff_right fun both => same both.1.symm

variable {ipAccessLimit : Int} {maps : AccessMaps} {charged addrs : List InAddr}

theorem AddressesExact.perm (addressesExact : AddressesExact ipAccessLimit maps charged)
    (same : addrs.Perm charged) : AddressesExact ipAccessLimit maps addrs :=
  ⟨addressesExact.1.perm addrs same.symm, fun ip => by
    rw [same.count_eq]
    exact addressesExact.2 ip⟩

theorem AddressesExact.set (addressesExact : AddressesExact ipAccessLimit maps charged)
    (positive : 0 < ipAccessLimit) (ip : InAddr) (next : AccessMaps) (allowed : Bool)
    (set_ : CIPAccessLimit.setAccessIP ipAccessLimit maps ip = (allowed, next)) :
    AddressesExact ipAccessLimit next (if allowed then ip :: charged else charged) := by
  rcases setAccessIP_spec ipAccessLimit maps charged ip positive addressesExact.1
    (addressesExact.2 ip) with ⟨refused, _⟩ | ⟨entered, taken, below, tracks⟩
  · rw [refused] at set_
    cases set_
    exact addressesExact
  · rw [taken] at set_
    cases set_
    refine ⟨tracks, fun other => ?_⟩
    by_cases same : other = ip
    · rw [if_pos rfl, same, List.count_cons_self]
      omega
    · rw [if_pos rfl, List.count_cons_of_ne (Ne.symm same)]
      exact addressesExact.2 other

theorem AddressesExact.del (addressesExact : AddressesExact ipAccessLimit maps charged)
    (positive : 0 < ipAccessLimit) (ip : InAddr) (deleted : (ip :: addrs).Perm charged) :
    AddressesExact ipAccessLimit (CIPAccessLimit.delAccessIP ipAccessLimit maps ip).2 addrs := by
  obtain ⟨tracks, bounded⟩ := addressesExact.perm deleted
  refine ⟨delAccessIP_spec ipAccessLimit maps addrs ip positive tracks, fun other => ?_⟩
  have more := bounded other
  have fewer := List.count_le_count_cons (a := other) (b := ip) (l := addrs)
  omega

end Lists

/-! ### One step -/

section Steps

variable {registry : ClientRegistry} {i : Nat} {stage : RegistryStage}

theorem handles_goto (here : registry.threads[i]? = some stage) (next : RegistryStage) :
    (stage.handle?.toList ++ (registry.goto i next).handles).Perm
      (next.handle?.toList ++ registry.handles) := by
  rw [handles, handles, ← List.append_assoc, ← List.append_assoc]
  exact (filterMap_set_perm RegistryStage.handle? registry.threads i stage next here).append_right _

theorem charged_goto (here : registry.threads[i]? = some stage) (next : RegistryStage) :
    (stage.charged?.toList ++ (registry.goto i next).charged).Perm
      (next.charged?.toList ++ registry.charged) := by
  rw [charged, charged, ← List.append_assoc, ← List.append_assoc]
  exact (filterMap_set_perm RegistryStage.charged? registry.threads i stage next
    here).append_right _

theorem listed_goto (here : registry.threads[i]? = some stage) (next : RegistryStage) :
    (stage.listed?.toList ++ (registry.goto i next).listed).Perm
      (next.listed?.toList ++ registry.listed) := by
  rw [listed, listed, ← List.append_assoc, ← List.append_assoc]
  exact (filterMap_set_perm RegistryStage.listed? registry.threads i stage next here).append_right _

theorem counted_goto (here : registry.threads[i]? = some stage) (next : RegistryStage) :
    total RegistryStage.counted (registry.threads.set i next) + stage.counted =
      total RegistryStage.counted registry.threads + next.counted :=
  total_set RegistryStage.counted registry.threads i stage next here

theorem passing_goto (here : registry.threads[i]? = some stage) (next : RegistryStage) :
    total RegistryStage.passing (registry.threads.set i next) + stage.passing =
      total RegistryStage.passing registry.threads + next.passing :=
  total_set RegistryStage.passing registry.threads i stage next here

theorem passing_le (threads : List RegistryStage) :
    total RegistryStage.passing threads ≤ threads.length :=
  total_le_length RegistryStage.passing threads fun stage => by
    cases stage with
    | belowLimit _ _ => exact Nat.le_refl 1
    | admitted _ _ => exact Nat.le_refl 1
    | _ => exact Nat.zero_le 1

variable {socketLimit ipAccessLimit : Int}

theorem checkLimit_exact (exact_ : registry.Exact socketLimit ipAccessLimit) (handle : Nat)
    (addr : InAddr) (here : registry.threads[i]? = some (.accepted handle addr))
    (next : RegistryStage) (kept : next.handle? = some handle) (uncharged : next.charged? = none)
    (unlisted : next.listed? = none) (uncounted : next.counted = 0)
    (below : next.passing = 0 ∨ next.passing = 1 ∧ registry.socketCount < socketLimit) :
    (registry.goto i next).Exact socketLimit ipAccessLimit := by
  have handles := handles_goto here next
  have charged := charged_goto here next
  have listed := listed_goto here next
  have counted := counted_goto here next
  have passing := passing_goto here next
  rw [kept] at handles
  rw [uncharged] at charged
  rw [unlisted] at listed
  rw [uncounted] at counted
  refine ⟨exact_.handles.perm handles.cons_inv, exact_.mapped.perm listed,
    fun positive => (exact_.addresses positive).perm charged, ?_, ?_⟩
  · exact exact_.counted.trans (congrArg (fun count : Nat => _ + (count : Int)) counted.symm)
  · have before := exact_.within
    have few := passing_le (registry.threads.set i next)
    have zero : RegistryStage.passing (.accepted handle addr) = 0 := rfl
    rw [List.length_set] at few
    simp only [goto, List.length_set]
    omega

theorem accept_exact (exact_ : registry.Exact socketLimit ipAccessLimit) (handle : Nat)
    (addr : InAddr) (here : registry.threads[i]? = some .idle)
    (closed : ¬ registry.opened handle = true) :
    ({ registry with opened := Function.update registry.opened handle true }.goto i
      (.accepted handle addr)).Exact socketLimit ipAccessLimit := by
  have counted := counted_goto here (.accepted handle addr)
  have passing := passing_goto here (.accepted handle addr)
  refine ⟨exact_.handles.take handle closed (handles_goto here (.accepted handle addr)),
    exact_.mapped.perm (listed_goto here (.accepted handle addr)),
    fun positive => (exact_.addresses positive).perm (charged_goto here (.accepted handle addr)),
    ?_, ?_⟩
  · exact exact_.counted.trans (congrArg (fun count : Nat => _ + (count : Int)) counted.symm)
  · have before := exact_.within
    simp only [goto, List.length_set]
    simp only [RegistryStage.passing] at passing
    omega

theorem setAccessIP_exact (exact_ : registry.Exact socketLimit ipAccessLimit) (handle : Nat)
    (addr : InAddr) (here : registry.threads[i]? = some (.belowLimit handle addr))
    (maps : AccessMaps) (allowed : Bool)
    (set_ : CIPAccessLimit.setAccessIP ipAccessLimit registry.accessMaps addr = (allowed, maps)) :
    ({ registry with accessMaps := maps }.goto i
      (if allowed then .admitted handle addr else .refused handle)).Exact socketLimit
        ipAccessLimit := by
  obtain ⟨next, isNext⟩ : ∃ next : RegistryStage,
      next = if allowed then .admitted handle addr else .refused handle := ⟨_, rfl⟩
  have shares : next.handle? = some handle ∧ next.listed? = none ∧ next.counted = 0 ∧
      next.passing ≤ 1 ∧ next.charged? = if allowed then some addr else none := by
    rw [isNext]
    cases allowed with
    | true => exact ⟨rfl, rfl, rfl, Nat.le_refl 1, rfl⟩
    | false => exact ⟨rfl, rfl, rfl, Nat.zero_le 1, rfl⟩
  obtain ⟨kept, unlisted, uncounted, light, charge⟩ := shares
  rw [← isNext]
  have handles := handles_goto here next
  have charged := charged_goto here next
  have listed := listed_goto here next
  have counted := counted_goto here next
  have passing := passing_goto here next
  rw [kept] at handles
  rw [charge] at charged
  rw [unlisted] at listed
  rw [uncounted] at counted
  refine ⟨exact_.handles.perm handles.cons_inv, exact_.mapped.perm listed,
    fun positive => ((exact_.addresses positive).set positive addr maps allowed set_).perm ?_,
    ?_, ?_⟩
  · refine charged.trans ?_
    cases allowed with
    | true => exact List.Perm.refl _
    | false => exact List.Perm.refl _
  · exact exact_.counted.trans (congrArg (fun count : Nat => _ + (count : Int)) counted.symm)
  · have before := exact_.within
    have one : RegistryStage.passing (.belowLimit handle addr) = 1 := rfl
    simp only [goto, List.length_set]
    omega

theorem allocate_exact (exact_ : registry.Exact socketLimit ipAccessLimit) (handle : Nat)
    (addr : InAddr) (here : registry.threads[i]? = some (.admitted handle addr)) (object : Nat) :
    ({ registry with
      socketCount := registry.socketCount + 1
      nextObject := object }.goto i (.built ⟨registry.nextObject, handle, addr⟩)).Exact
        socketLimit ipAccessLimit := by
  let built : RegistryStage := .built ⟨registry.nextObject, handle, addr⟩
  have counted := counted_goto here built
  have passing := passing_goto here built
  refine ⟨exact_.handles.perm (handles_goto here built).cons_inv,
    exact_.mapped.perm (listed_goto here built),
    fun positive => (exact_.addresses positive).perm (charged_goto here built).cons_inv, ?_, ?_⟩
  · have before := exact_.counted
    simp only [goto]
    simp only [RegistryStage.counted, built] at counted
    omega
  · have before := exact_.within
    simp only [goto, List.length_set]
    simp only [RegistryStage.passing, built] at passing
    omega

theorem listed_handles (registry : ClientRegistry) :
    (registry.listed.map ClientConnection.handle).Sublist registry.handles := by
  rw [listed, handles, List.map_append]
  refine List.Sublist.append ?_ (List.Sublist.refl _)
  induction registry.threads with
  | nil => exact List.Sublist.refl _
  | cons stage rest ih =>
      cases stage with
      | closing connection => exact ih.cons_cons connection.handle
      | uncounted connection => exact ih.cons_cons connection.handle
      | idle => exact ih
      | _ => exact ih.cons _

theorem insert_exact (exact_ : registry.Exact socketLimit ipAccessLimit)
    (connection : ClientConnection) (here : registry.threads[i]? = some (.built connection)) :
    ({ registry with
      socketmap :=
        AcceptSide.insertSocket registry.socketmap connection.handle connection.object
      connections := connection :: registry.connections }.goto i .idle).Exact socketLimit
        ipAccessLimit := by
  have handles := handles_goto here .idle
  have charged := charged_goto here .idle
  have listed := listed_goto here .idle
  have counted := counted_goto here .idle
  have passing := passing_goto here .idle
  have fresh : connection.handle ∉ registry.listed.map ClientConnection.handle := by
    intro member
    have apart : (connection.handle :: (registry.goto i .idle).handles).Nodup :=
      handles.nodup_iff.mpr exact_.handles.1
    have still := (listed.map ClientConnection.handle).mem_iff.mpr member
    exact (List.nodup_cons.mp apart).1 ((listed_handles _).subset still)
  refine ⟨exact_.handles.perm ?_, exact_.mapped.insert connection fresh ?_,
    fun positive => (exact_.addresses positive).perm ?_, ?_, ?_⟩
  · exact List.perm_middle.trans handles
  · exact List.perm_middle.trans (listed.cons connection)
  · exact List.perm_middle.trans charged
  · have before := exact_.counted
    simp only [goto, List.length_cons]
    simp only [RegistryStage.counted] at counted
    omega
  · have before := exact_.within
    simp only [goto, List.length_set]
    simp only [RegistryStage.passing] at passing
    omega

/-- A thread that was refused, or has closed its connection, gives the handle back. -/
theorem closesocket_exact (exact_ : registry.Exact socketLimit ipAccessLimit) (handle : Nat)
    (here : registry.threads[i]? = some stage) (has : stage.handle? = some handle)
    (uncharged : stage.charged? = none) (unlisted : stage.listed? = none)
    (uncounted : stage.counted = 0) (passed : stage.passing = 0) :
    ({ registry with opened := Function.update registry.opened handle false }.goto i
      .idle).Exact socketLimit ipAccessLimit := by
  have handles := handles_goto here .idle
  have charged := charged_goto here .idle
  have listed := listed_goto here .idle
  have counted := counted_goto here .idle
  have passing := passing_goto here .idle
  rw [has] at handles
  rw [uncharged] at charged
  rw [unlisted] at listed
  rw [uncounted] at counted
  rw [passed] at passing
  refine ⟨exact_.handles.drop handle handles, exact_.mapped.perm listed,
    fun positive => (exact_.addresses positive).perm charged, ?_, ?_⟩
  · exact exact_.counted.trans (congrArg (fun count : Nat => _ + (count : Int)) counted.symm)
  · have before := exact_.within
    simp only [goto, List.length_set]
    simp only [RegistryStage.passing] at passing
    omega

theorem perm_of_moved {Share : Type} {before after rest whole : List Share} (share : Share)
    (grown : after.Perm (share :: before)) (moved : (share :: rest).Perm whole) :
    (after ++ rest).Perm (before ++ whole) :=
  (grown.append_right rest).trans (List.perm_middle.symm.trans (moved.append_left before))

theorem close_exact (exact_ : registry.Exact socketLimit ipAccessLimit) (index : Nat)
    (connection : ClientConnection) (here : registry.threads[i]? = some .idle)
    (found : registry.connections[index]? = some connection) :
    ({ registry with connections := registry.connections.eraseIdx index }.goto i
      (.closing connection)).Exact socketLimit ipAccessLimit := by
  obtain ⟨inside, same⟩ := List.getElem?_eq_some_iff.mp found
  have moved : (connection :: registry.connections.eraseIdx index).Perm registry.connections :=
    same ▸ List.getElem_cons_eraseIdx_perm inside
  have counted := counted_goto here (.closing connection)
  have passing := passing_goto here (.closing connection)
  refine ⟨exact_.handles.perm ?_, exact_.mapped.perm ?_,
    fun positive => (exact_.addresses positive).perm ?_, ?_, ?_⟩
  · exact perm_of_moved connection.handle
      (filterMap_set_perm RegistryStage.handle? registry.threads i _ _ here)
      (moved.map ClientConnection.handle)
  · exact perm_of_moved connection
      (filterMap_set_perm RegistryStage.listed? registry.threads i _ _ here) moved
  · exact perm_of_moved connection.addr
      (filterMap_set_perm RegistryStage.charged? registry.threads i _ _ here)
      (moved.map ClientConnection.addr)
  · have before := exact_.counted
    have fewer := moved.length_eq
    simp only [goto]
    simp only [RegistryStage.counted, List.length_cons] at counted fewer
    omega
  · have before := exact_.within
    simp only [goto, List.length_set]
    simp only [RegistryStage.passing] at passing
    omega

theorem uncount_exact (exact_ : registry.Exact socketLimit ipAccessLimit)
    (connection : ClientConnection) (here : registry.threads[i]? = some (.closing connection)) :
    ({ registry with socketCount := registry.socketCount - 1 }.goto i
      (.uncounted connection)).Exact socketLimit ipAccessLimit := by
  have counted := counted_goto here (.uncounted connection)
  have passing := passing_goto here (.uncounted connection)
  refine ⟨exact_.handles.perm (handles_goto here (.uncounted connection)).cons_inv,
    exact_.mapped.perm (listed_goto here (.uncounted connection)).cons_inv,
    fun positive =>
      (exact_.addresses positive).perm (charged_goto here (.uncounted connection)).cons_inv,
    ?_, ?_⟩
  · have before := exact_.counted
    simp only [goto]
    simp only [RegistryStage.counted] at counted
    omega
  · have before := exact_.within
    simp only [goto, List.length_set]
    simp only [RegistryStage.passing] at passing
    omega

theorem removeSocket_exact (exact_ : registry.Exact socketLimit ipAccessLimit)
    (connection : ClientConnection)
    (here : registry.threads[i]? = some (.uncounted connection)) :
    ({ registry with
      socketmap := Function.update registry.socketmap connection.handle none }.goto i
        (.removed connection)).Exact socketLimit ipAccessLimit := by
  have counted := counted_goto here (.removed connection)
  have passing := passing_goto here (.removed connection)
  have distinct := (listed_handles registry).nodup exact_.handles.1
  refine ⟨exact_.handles.perm (handles_goto here (.removed connection)).cons_inv,
    exact_.mapped.erase connection distinct (listed_goto here (.removed connection)),
    fun positive =>
      (exact_.addresses positive).perm (charged_goto here (.removed connection)).cons_inv,
    ?_, ?_⟩
  · exact exact_.counted.trans (congrArg (fun count : Nat => _ + (count : Int)) counted.symm)
  · have before := exact_.within
    simp only [goto, List.length_set]
    simp only [RegistryStage.passing] at passing
    omega

theorem delAccessIP_exact (exact_ : registry.Exact socketLimit ipAccessLimit)
    (connection : ClientConnection) (here : registry.threads[i]? = some (.removed connection)) :
    ({ registry with
      accessMaps :=
        (CIPAccessLimit.delAccessIP ipAccessLimit registry.accessMaps connection.addr).2
      }.goto i (.released connection)).Exact socketLimit ipAccessLimit := by
  have counted := counted_goto here (.released connection)
  have passing := passing_goto here (.released connection)
  refine ⟨exact_.handles.perm (handles_goto here (.released connection)).cons_inv,
    exact_.mapped.perm (listed_goto here (.released connection)),
    fun positive => (exact_.addresses positive).del positive connection.addr
      (charged_goto here (.released connection)), ?_, ?_⟩
  · exact exact_.counted.trans (congrArg (fun count : Nat => _ + (count : Int)) counted.symm)
  · have before := exact_.within
    simp only [goto, List.length_set]
    simp only [RegistryStage.passing] at passing
    omega

theorem step_exact (event : RegistryEvent) (next : ClientRegistry)
    (exact_ : registry.Exact socketLimit ipAccessLimit)
    (stepped : (machine socketLimit ipAccessLimit).step registry event = some next) :
    next.Exact socketLimit ipAccessLimit := by
  cases event with
  | accept i handle addr =>
      simp only [machine, step] at stepped
      split at stepped
      · rename_i here
        split at stepped
        · contradiction
        · rename_i closed
          cases stepped
          exact accept_exact exact_ handle addr here closed
      · contradiction
  | checkLimit i =>
      simp only [machine, step] at stepped
      split at stepped
      · rename_i handle addr here
        split at stepped
        · cases stepped
          exact checkLimit_exact exact_ handle addr here _ rfl rfl rfl rfl (Or.inl rfl)
        · rename_i below
          cases stepped
          exact checkLimit_exact exact_ handle addr here _ rfl rfl rfl rfl
            (Or.inr ⟨rfl, Int.not_le.mp below⟩)
      · contradiction
  | setAccessIP i =>
      simp only [machine, step] at stepped
      split at stepped
      · rename_i handle addr here
        split at stepped
        · rename_i maps set_
          cases stepped
          exact setAccessIP_exact exact_ handle addr here maps false set_
        · rename_i maps set_
          cases stepped
          exact setAccessIP_exact exact_ handle addr here maps true set_
      · contradiction
  | allocate i =>
      simp only [machine, step] at stepped
      split at stepped
      · rename_i handle addr here
        cases stepped
        exact allocate_exact exact_ handle addr here _
      · contradiction
  | insert i =>
      simp only [machine, step] at stepped
      split at stepped
      · rename_i connection here
        cases stepped
        exact insert_exact exact_ connection here
      · contradiction
  | refuse i =>
      simp only [machine, step] at stepped
      split at stepped
      · rename_i handle here
        cases stepped
        exact closesocket_exact exact_ handle here rfl rfl rfl rfl rfl
      · contradiction
  | close i index =>
      simp only [machine, step] at stepped
      split at stepped
      · rename_i connection here found
        cases stepped
        exact close_exact exact_ index connection here found
      · contradiction
  | uncount i =>
      simp only [machine, step] at stepped
      split at stepped
      · rename_i connection here
        cases stepped
        exact uncount_exact exact_ connection here
      · contradiction
  | removeSocket i =>
      simp only [machine, step] at stepped
      split at stepped
      · rename_i connection here
        cases stepped
        exact removeSocket_exact exact_ connection here
      · contradiction
  | delAccessIP i =>
      simp only [machine, step] at stepped
      split at stepped
      · rename_i connection here
        cases stepped
        exact delAccessIP_exact exact_ connection here
      · contradiction
  | closesocket i =>
      simp only [machine, step] at stepped
      split at stepped
      · rename_i connection here
        cases stepped
        exact closesocket_exact exact_ connection.handle here rfl rfl rfl rfl rfl
      · contradiction

end Steps

/-! ### Every run -/

theorem idle_shares {Share : Type} (share : RegistryStage → Option Share)
    (nothing : share .idle = none) (workers : Nat) :
    (List.replicate workers RegistryStage.idle).filterMap share = [] := by
  induction workers with
  | zero => rfl
  | succ workers ih => rw [List.replicate_succ, List.filterMap_cons, nothing, ih]

theorem start_exact (socketLimit ipAccessLimit : Int) (workers : Nat) :
    (start workers).Exact socketLimit ipAccessLimit := by
  have noHandles : (start workers).handles = [] := by
    rw [handles, start, idle_shares RegistryStage.handle? rfl]
    rfl
  have noneListed : (start workers).listed = [] := by
    rw [listed, start, idle_shares RegistryStage.listed? rfl]
    rfl
  have noneCharged : (start workers).charged = [] := by
    rw [charged, start, idle_shares RegistryStage.charged? rfl]
    rfl
  refine ⟨?_, ?_, fun positive => ?_, ?_, ?_⟩
  · rw [noHandles]
    exact ⟨List.nodup_nil, fun _ => iff_of_false Bool.false_ne_true List.not_mem_nil⟩
  · rw [noneListed]
    exact fun _ _ => iff_of_false nofun fun ⟨_, member, _⟩ => List.not_mem_nil member
  · rw [noneCharged]
    refine ⟨⟨fun _ => rfl, fun _ _ _ => rfl⟩, fun _ => Int.le_of_lt positive⟩
  · rw [start, total_replicate RegistryStage.counted workers .idle rfl]
    rfl
  · rw [start, total_replicate RegistryStage.passing workers .idle rfl]
    exact Int.le_max_left 0 _

theorem step_workers (socketLimit ipAccessLimit : Int) (registry : ClientRegistry)
    (event : RegistryEvent) (next : ClientRegistry)
    (stepped : (machine socketLimit ipAccessLimit).step registry event = some next) :
    next.threads.length = registry.threads.length := by
  have moved : ∃ i stage, next.threads = registry.threads.set i stage := by
    simp only [machine, step] at stepped
    split at stepped
    all_goals
      split at stepped
      · first
        | cases stepped
          exact ⟨_, _, rfl⟩
        | split at stepped
          · first
            | contradiction
            | cases stepped
              exact ⟨_, _, rfl⟩
          · cases stepped
            exact ⟨_, _, rfl⟩
      · contradiction
  obtain ⟨i, stage, same⟩ := moved
  rw [same, List.length_set]

/-- What holds between any two steps of any threads: the map finds the open connections
and those not yet taken off it, by handles that the system has not given away again;
`m_SocketCount` counts them, and passes `SocketLimit` by one less than there are threads
at most; no address has more connections than it may. -/
structure Consistent (socketLimit ipAccessLimit : Int) (workers : Nat)
    (registry : ClientRegistry) : Prop where
  exact_ : registry.Exact socketLimit ipAccessLimit
  found : ∀ handle object, registry.socketmap handle = some object →
    registry.opened handle = true
  limited : registry.socketCount ≤ max 0 (socketLimit + workers - 1)

theorem Exact.consistent {socketLimit ipAccessLimit : Int} {registry : ClientRegistry}
    (exact_ : registry.Exact socketLimit ipAccessLimit) :
    registry.Consistent socketLimit ipAccessLimit registry.threads.length := by
  refine ⟨exact_, fun handle object found => ?_, ?_⟩
  · obtain ⟨connection, member, isHandle, _⟩ := (exact_.mapped handle object).mp found
    rw [exact_.handles.2]
    exact (listed_handles registry).subset (List.mem_map.mpr ⟨connection, member, isHandle⟩)
  · have within := exact_.within
    omega

theorem consistent_throughout (socketLimit ipAccessLimit : Int) (workers : Nat)
    (events : List RegistryEvent) :
    (machine socketLimit ipAccessLimit).Throughout (Consistent socketLimit ipAccessLimit workers)
      (start workers) events := by
  refine (machine socketLimit ipAccessLimit).throughout_of_guarded
    (fun registry => registry.Exact socketLimit ipAccessLimit ∧
      registry.threads.length = workers) _ (fun _ _ => True)
    (fun registry event next both _ stepped => ?_) (fun registry both => ?_) events _
    ⟨start_exact socketLimit ipAccessLimit workers, List.length_replicate⟩
    ((machine socketLimit ipAccessLimit).guarded_of_step _ (fun _ _ _ _ => trivial) events _)
  · exact ⟨step_exact event next both.1 stepped,
      (step_workers socketLimit ipAccessLimit registry event next stepped).trans both.2⟩
  · exact both.2 ▸ both.1.consistent

/-! ### The limit passed -/

section Rush

variable (socketLimit : Int) {registry : ClientRegistry}

def admission (i handle : Nat) (addr : InAddr) : List RegistryEvent :=
  [.accept i handle addr, .checkLimit i, .setAccessIP i]

theorem admission_run (i handle : Nat) (addr : InAddr)
    (here : registry.threads[i]? = some .idle) (closed : registry.opened handle = false)
    (below : registry.socketCount < socketLimit) :
    (machine socketLimit 0).run registry (admission i handle addr) =
      some ({ registry with opened := Function.update registry.opened handle true }.goto i
        (.admitted handle addr)) := by
  have inside : i < registry.threads.length := (List.getElem?_eq_some_iff.mp here).1
  have there : ∀ (stage next : RegistryStage) (threads : List RegistryStage),
      threads.length = registry.threads.length → (threads.set i stage)[i]? = some stage :=
    fun stage _ threads same => List.getElem?_set_self (same ▸ inside)
  have unlimited : ∀ maps : AccessMaps, CIPAccessLimit.setAccessIP 0 maps addr = (true, maps) :=
    fun _ => rfl
  simp only [admission, EventRuns.Machine.run, machine, step, here, closed, Bool.false_eq_true,
    if_false, goto, there _ .idle registry.threads rfl, ge_iff_le, Int.not_le.mpr below,
    List.set_set, unlimited]

/-- So many connections are counted; the threads between the two numbers stand in front
of the constructor, the later ones are idle, and handles from there on are closed. -/
structure Queued (workers count handles first last : Nat) (registry : ClientRegistry) :
    Prop where
  counted : registry.socketCount = count
  closed : ∀ handle, handles ≤ handle → registry.opened handle = false
  waiting : ∀ i, first ≤ i → i < last →
    ∃ handle addr, registry.threads[i]? = some (.admitted handle addr)
  idle : ∀ i, last ≤ i → i < workers → registry.threads[i]? = some .idle

variable {workers count handles first last : Nat}

theorem Queued.admit (queued : Queued workers count handles first last registry)
    (within : last < workers) (below : (count : Int) < socketLimit) :
    ∃ events next, (machine socketLimit 0).run registry events = some next ∧
      Queued workers count (handles + 1) first (last + 1) next := by
  have here := queued.idle last (Nat.le_refl last) within
  have inside := (List.getElem?_eq_some_iff.mp here).1
  refine ⟨admission last handles ⟨0, 0, 0, 0⟩, _, admission_run socketLimit last handles _ here
    (queued.closed handles (Nat.le_refl handles)) (queued.counted ▸ below), queued.counted,
    fun handle later => ?_, fun i atLeast before => ?_, fun i later before => ?_⟩
  · exact (Function.update_of_ne (Nat.ne_of_gt later) true registry.opened).trans
      (queued.closed handle (Nat.le_of_succ_le later))
  · rcases Nat.lt_succ_iff_lt_or_eq.mp before with earlier | rfl
    · obtain ⟨handle, addr, waits⟩ := queued.waiting i atLeast earlier
      exact ⟨handle, addr, (List.getElem?_set_ne (Nat.ne_of_gt earlier)).trans waits⟩
    · exact ⟨handles, _, List.getElem?_set_self inside⟩
  · exact (List.getElem?_set_ne (Nat.ne_of_lt later)).trans
      (queued.idle i (Nat.le_of_succ_le later) before)

theorem Queued.construct (queued : Queued workers count handles first last registry)
    (some_ : first < last) :
    ∃ events next connection, (machine socketLimit 0).run registry events = some next ∧
      next.threads[first]? = some (.built connection) ∧
      Queued workers (count + 1) handles (first + 1) last next := by
  obtain ⟨handle, addr, here⟩ := queued.waiting first (Nat.le_refl first) some_
  have inside := (List.getElem?_eq_some_iff.mp here).1
  refine ⟨[.allocate first],
    { registry with
      socketCount := registry.socketCount + 1
      nextObject := registry.nextObject + 1 }.goto first
        (.built ⟨registry.nextObject, handle, addr⟩),
    _, ?_, List.getElem?_set_self inside, ?_, queued.closed, fun i later before => ?_,
    fun i later before => ?_⟩
  · simp only [EventRuns.Machine.run, machine, step, here]
  · exact (congrArg (· + 1) queued.counted).trans (Int.natCast_succ count).symm
  · obtain ⟨handle, addr, waits⟩ := queued.waiting i (Nat.le_of_succ_le later) before
    exact ⟨handle, addr, (List.getElem?_set_ne (Nat.ne_of_lt later)).trans waits⟩
  · exact (List.getElem?_set_ne (Nat.ne_of_lt (Nat.lt_of_lt_of_le some_ later))).trans
      (queued.idle i later before)

/-- One connection after the other, on the first thread. -/
theorem Queued.connect (queued : Queued workers count handles 0 0 registry) (some_ : 0 < workers)
    (below : (count : Int) < socketLimit) :
    ∃ events next, (machine socketLimit 0).run registry events = some next ∧
      Queued workers (count + 1) (handles + 1) 0 0 next := by
  obtain ⟨first, gate, ranFirst, atGate⟩ := queued.admit socketLimit some_ below
  obtain ⟨second, middle, connection, ranSecond, built, passed⟩ :=
    atGate.construct socketLimit Nat.one_pos
  have inside := (List.getElem?_eq_some_iff.mp built).1
  have ran : (machine socketLimit 0).run registry (first ++ second) = some middle := by
    rw [(machine socketLimit 0).run_append first second registry gate ranFirst]
    exact ranSecond
  refine ⟨first ++ second ++ [.insert 0],
    { middle with
      socketmap := AcceptSide.insertSocket middle.socketmap connection.handle connection.object
      connections := connection :: middle.connections }.goto 0 .idle, ?_, passed.counted,
    passed.closed, fun i _ before => absurd before (Nat.not_lt_zero i), fun i _ before => ?_⟩
  · rw [(machine socketLimit 0).run_append (first ++ second) [.insert 0] registry middle ran]
    simp only [EventRuns.Machine.run, machine, step, built]
  · cases i with
    | zero => exact List.getElem?_set_self inside
    | succ i =>
        exact (List.getElem?_set_ne (Nat.succ_ne_zero i).symm).trans
          (passed.idle (i + 1) (Nat.succ_le_succ (Nat.zero_le i)) before)

theorem connected (some_ : 0 < workers) (count : Nat) (below : (count : Int) ≤ socketLimit) :
    ∃ events next, (machine socketLimit 0).run (start workers) events = some next ∧
      Queued workers count count 0 0 next := by
  induction count with
  | zero =>
      refine ⟨[], start workers, rfl, rfl, fun _ _ => rfl,
        fun i _ before => absurd before (Nat.not_lt_zero i), fun i _ before => ?_⟩
      exact List.getElem?_replicate_of_lt before
  | succ count ih =>
      obtain ⟨before, middle, ranBefore, queued⟩ := ih (by omega)
      obtain ⟨after, next, ranAfter, more⟩ := queued.connect socketLimit some_ (by omega)
      refine ⟨before ++ after, next, ?_, more⟩
      rw [(machine socketLimit 0).run_append before after _ middle ranBefore]
      exact ranAfter

theorem admitted_all (queued : Queued workers count handles 0 0 registry)
    (below : (count : Int) < socketLimit) (last : Nat) (within : last ≤ workers) :
    ∃ events next, (machine socketLimit 0).run registry events = some next ∧
      Queued workers count (handles + last) 0 last next := by
  induction last with
  | zero => exact ⟨[], registry, rfl, queued⟩
  | succ last ih =>
      obtain ⟨before, middle, ranBefore, some_⟩ := ih (Nat.le_of_succ_le within)
      obtain ⟨after, next, ranAfter, more⟩ := some_.admit socketLimit within below
      refine ⟨before ++ after, next, ?_, more⟩
      rw [(machine socketLimit 0).run_append before after _ middle ranBefore]
      exact ranAfter

theorem constructed_all (queued : Queued workers count handles 0 last registry) (first : Nat)
    (within : first ≤ last) :
    ∃ events next, (machine socketLimit 0).run registry events = some next ∧
      Queued workers (count + first) handles first last next := by
  induction first with
  | zero => exact ⟨[], registry, rfl, queued⟩
  | succ first ih =>
      obtain ⟨before, middle, ranBefore, some_⟩ := ih (Nat.le_of_succ_le within)
      obtain ⟨after, next, _, ranAfter, _, more⟩ :=
        some_.construct socketLimit within
      refine ⟨before ++ after, next, ?_, more⟩
      rw [(machine socketLimit 0).run_append before after _ middle ranBefore]
      exact ranAfter

/-- The bound of `consistent_throughout` is reached: one connection below the limit, all
the threads pass the check before any of them counts its connection. -/
theorem limit_passed (socketLimit workers : Nat) (limited : 0 < socketLimit)
    (some_ : 0 < workers) :
    ∃ events registry,
      (machine socketLimit 0).run (start workers) events = some registry ∧
        registry.socketCount = (socketLimit : Int) + workers - 1 := by
  obtain ⟨first, quiet, ranFirst, queued⟩ :=
    connected socketLimit some_ (socketLimit - 1) (by omega)
  obtain ⟨second, gate, ranSecond, waiting⟩ :=
    admitted_all socketLimit queued (by omega) workers (Nat.le_refl workers)
  obtain ⟨third, full, ranThird, counted⟩ :=
    constructed_all socketLimit waiting workers (Nat.le_refl workers)
  refine ⟨first ++ (second ++ third), full, ?_, ?_⟩
  · rw [(machine socketLimit 0).run_append first _ _ quiet ranFirst,
      (machine socketLimit 0).run_append second third _ gate ranSecond]
    exact ranThird
  · rw [counted.counted]
    omega

theorem limit_passed_three :
    ∃ events registry, (machine (2 : Nat) 0).run (start 3) events = some registry ∧
      registry.socketCount = ((2 : Nat) : Int) + (3 : Nat) - 1 :=
  limit_passed 2 3 (by decide) (by decide)

end Rush

end ClientRegistry

end AuthServer
