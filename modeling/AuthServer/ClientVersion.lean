/-
Client resources and the packet that asks for one.

The resources are read from disk once, by `Config::InitClientVersionRes`;
`SelectClientVersion` looks one up by the key of a packet and sends it.  A
write behind an array and an access through a null pointer have no result.
Files are no larger than an `int` can say.
-/

import AuthServer.Lib.OrderedMap
import AuthServer.Senders
import Mathlib.Data.Nat.Basic

set_option autoImplicit false

namespace AuthServer

open LinearMemory

structure File where
  size : Nat
  fileBuff : Option (List UInt8)

abbrev FileSystem := String → Option (List UInt8)

abbrev ResourceMap := OrderedMap Nat File

structure Config where
  serverVersion : Int
  mapResource : ResourceMap

def sLoadSsnError : UInt8 := 5

def sLimitExceed : UInt8 := 15

namespace Config

def resourceName (i : Nat) : String := "resource\\" ++ Nat.repr i ++ ".zip"

/-- The loop of `InitClientVersionRes`; `sprintf` writes the name and its zero
into an array of 20. -/
def initLoop (files : FileSystem) :
    Nat → Nat → ResourceMap → Bool → Option (ResourceMap × Bool)
  | 0, _, mapResource, isFinish => some (mapResource, isFinish)
  | turns + 1, i, mapResource, isFinish =>
      if (resourceName i).length + 1 > 20 then none
      else
        match files (resourceName i) with
        | some pBuf =>
            initLoop files turns (i + 1) (mapResource.insert i ⟨pBuf.length, some pBuf⟩) isFinish
        | none => initLoop files turns (i + 1) mapResource false

def initClientVersionRes (files : FileSystem) (serverVersion : Int) :
    Option (ResourceMap × Bool) :=
  initLoop files serverVersion.toNat 1 OrderedMap.empty true

/-- The part of `Load` that fills the resources. -/
def load (files : FileSystem) (serverVersion : Int) : Option Config :=
  if serverVersion > 0 then
    (initClientVersionRes files serverVersion).map fun loaded => ⟨serverVersion, loaded.1⟩
  else some ⟨serverVersion, OrderedMap.empty⟩

def getClientResourceById (config : Config) (key : Nat) : Option File :=
  config.mapResource.find? key

end Config

def getShortFromPacket (packet : Nat → UInt8) : UInt16 :=
  (packet 0).toUInt16 ||| (packet 1).toUInt16 <<< 8

def CSocketServerEx.sendResource (client : ClientLink) (object : Nat)
    (recycled : Nat → UInt8) (cmdId : Int32) (key : UInt16) (sendmsg : List UInt8)
    (msglen : Nat) : Option ClientLink :=
  if client.mode = .close then some client
  else if 5 + msglen > bufferSize then none
  else
    let len : Int := (msglen : Int) + 1 + 2 + 2
    let cells := store recycled 5 (sendmsg.take msglen)
    let cells := store (storeLength cells len) 2
      [shiftedChar cmdId 0, key.toUInt8, (key >>> 8).toUInt8]
    ((client.outgoing.alloc object).write object
      { buffer := cells, size := dword len, ref := 1 }).map fun after =>
        { client with outgoing := after }

def reply (object : Nat) (recycled : Nat → UInt8) (command code : UInt8) : SendInput :=
  ⟨object, recycled, ['c', 'c'],
    [.int command.toUInt32.toInt32, .int code.toUInt32.toInt32]⟩

/-- The connection after the handler, and whether the handler asks to close it. -/
def selectClientVersion (config : Config) (tick : Nat) (client : ClientLink) (object : Nat)
    (recycled : Nat → UInt8) (packet : Nat → UInt8) : Option (ClientLink × Bool) :=
  let key := getShortFromPacket packet
  let client := { client with lastIO := tick }
  if (key.toNat : Int) > config.serverVersion then
    (CSocketServerEx.send tick client (reply object recycled 255 sLimitExceed)).map
      fun client => (client, true)
  else
    match config.getClientResourceById key.toNat with
    | none => none
    | some file =>
        match file.fileBuff with
        | none =>
            (CSocketServerEx.send tick client (reply object recycled 255 sLoadSsnError)).map
              fun client => (client, true)
        | some fileBuff =>
            (CSocketServerEx.sendResource client object recycled 1 key fileBuff file.size).map
              fun client => (client, false)

/-- `CPacketServerEx::OnIOCallback`: the connection is closed when the handler
says so. -/
def CPacketServerEx.onIOCallback (config : Config) (tick : Nat) (client : ClientLink)
    (object : Nat) (recycled : Nat → UInt8) (packet : Nat → UInt8) : Option ClientLink :=
  (selectClientVersion config tick client object recycled packet).map fun handled =>
    if handled.2 then { handled.1 with mode := .close } else handled.1

namespace Config

theorem resourceName_fits_iff (i : Nat) : ¬ (resourceName i).length + 1 > 20 ↔ i < 1000000 := by
  have digits : (Nat.repr i).length ≤ 6 ↔ i < 10 ^ 6 := Nat.length_repr_le_iff (by decide)
  have length : (resourceName i).length = 9 + (Nat.repr i).length + 4 := by
    unfold resourceName
    rw [String.length_append, String.length_append]
    rfl
  rw [length]
  omega

/-- Each turn loads one file where there is one; the names fit up to six digits. -/
theorem initLoop_spec (files : FileSystem) (turns i : Nat) (mapResource : ResourceMap)
    (isFinish : Bool) (later : ∀ key, i ≤ key → mapResource.find? key = none)
    (within : i + turns ≤ 1000000) :
    ∃ loaded finished, initLoop files turns i mapResource isFinish = some (loaded, finished) ∧
      ∀ key, loaded.find? key =
        if i ≤ key ∧ key < i + turns then
          (files (resourceName key)).map fun bytes => ⟨bytes.length, some bytes⟩
        else mapResource.find? key := by
  induction turns generalizing i mapResource isFinish with
  | zero =>
      refine ⟨mapResource, isFinish, rfl, fun key => ?_⟩
      rw [if_neg (by omega)]
  | succ turns ih =>
      have fits := (resourceName_fits_iff i).mpr (by omega)
      unfold initLoop
      rw [if_neg fits]
      cases found : files (resourceName i) with
      | none =>
          obtain ⟨loaded, finished, ran, entries⟩ := ih (i + 1) mapResource false
            (fun key above => later key (by omega)) (by omega)
          refine ⟨loaded, finished, ran, fun key => ?_⟩
          rw [entries key]
          by_cases atStart : key = i
          · rw [atStart, if_neg (by omega), if_pos (by omega), found, later i (Nat.le_refl i)]
            rfl
          · by_cases after : i + 1 ≤ key ∧ key < i + 1 + turns
            · rw [if_pos after, if_pos (by omega)]
            · rw [if_neg after, if_neg (by omega)]
      | some pBuf =>
          have added := OrderedMap.find?_insert mapResource i
          obtain ⟨loaded, finished, ran, entries⟩ := ih (i + 1)
            (mapResource.insert i ⟨pBuf.length, some pBuf⟩) isFinish
            (fun key above => by
              rw [added, if_neg (by omega)]
              exact later key (by omega)) (by omega)
          refine ⟨loaded, finished, ran, fun key => ?_⟩
          rw [entries key, added]
          by_cases atStart : key = i
          · rw [atStart, if_neg (by omega), if_pos rfl, if_pos (by omega), found,
              later i (Nat.le_refl i)]
            rfl
          · rw [if_neg atStart]
            by_cases after : i + 1 ≤ key ∧ key < i + 1 + turns
            · rw [if_pos after, if_pos (by omega)]
            · rw [if_neg after, if_neg (by omega)]

theorem initLoop_overrun (files : FileSystem) (turns i : Nat) (mapResource : ResourceMap)
    (isFinish : Bool) (start : i ≤ 1000000) (excess : 1000000 < i + turns) :
    initLoop files turns i mapResource isFinish = none := by
  induction turns generalizing i mapResource isFinish with
  | zero => omega
  | succ turns ih =>
      unfold initLoop
      by_cases last : i = 1000000
      · rw [if_pos]
        by_contra fits
        have small := (resourceName_fits_iff i).mp fits
        omega
      · rw [if_neg ((resourceName_fits_iff i).mpr (by omega))]
        split
        · exact ih (i + 1) _ _ (by omega) (by omega)
        · exact ih (i + 1) _ _ (by omega) (by omega)

/-- The file that belongs to a key, where its id is one that is loaded. -/
def fileFor (files : FileSystem) (serverVersion : Int) (key : Nat) : Option (List UInt8) :=
  if 1 ≤ key ∧ (key : Int) ≤ serverVersion then files (resourceName key) else none

theorem load_spec (files : FileSystem) (serverVersion : Int)
    (within : serverVersion < 1000000) :
    ∃ config, load files serverVersion = some config ∧
      config.serverVersion = serverVersion ∧
      ∀ key, config.getClientResourceById key =
        (fileFor files serverVersion key).map fun bytes => ⟨bytes.length, some bytes⟩ := by
  unfold load
  by_cases positive : serverVersion > 0
  · rw [if_pos positive]
    obtain ⟨loaded, finished, ran, entries⟩ := initLoop_spec files serverVersion.toNat 1
      OrderedMap.empty true (fun key _ => OrderedMap.find?_empty key) (by omega)
    refine ⟨⟨serverVersion, loaded⟩, ?_, rfl, fun key => ?_⟩
    · rw [initClientVersionRes, ran, Option.map_some]
    · unfold getClientResourceById fileFor
      simp only [entries key]
      by_cases inside : 1 ≤ key ∧ (key : Int) ≤ serverVersion
      · rw [if_pos inside, if_pos (by omega)]
      · rw [if_neg inside, if_neg (by omega)]
        rfl
  · rw [if_neg positive]
    refine ⟨_, rfl, rfl, fun key => ?_⟩
    unfold fileFor
    rw [if_neg (by omega)]
    rfl

theorem load_overrun (files : FileSystem) (serverVersion : Int)
    (excess : ¬ serverVersion < 1000000) : load files serverVersion = none := by
  unfold load initClientVersionRes
  rw [if_pos (by omega), initLoop_overrun files _ 1 _ _ (by decide) (by omega)]
  rfl

/-- The resources behind a load that went through are the files there were. -/
theorem entry_of_load (files : FileSystem) (serverVersion : Int) (config : Config)
    (loaded : load files serverVersion = some config) (key : Nat) :
    config.getClientResourceById key =
      (fileFor files serverVersion key).map fun bytes => ⟨bytes.length, some bytes⟩ := by
  by_cases small : serverVersion < 1000000
  · obtain ⟨other, same, _, entries⟩ := load_spec files serverVersion small
    rw [loaded, Option.some.injEq] at same
    rw [same]
    exact entries key
  · rw [load_overrun files serverVersion small] at loaded
    cases loaded

end Config

def ErrorReply (before after : ClientLink) : Prop :=
  after.mode = .close ∧ ∃ code, (code = sLimitExceed ∨ code = sLoadSsnError) ∧
    after.outgoing.output.bytes = before.outgoing.output.bytes ++ [4, 0, 255, code]

/-- One frame with the whole file, no larger than a buffer. -/
def Served (before after : ClientLink) (key : UInt16) (file : List UInt8) : Prop :=
  after.mode = before.mode ∧ ∃ low high : UInt8,
    low.toNat + 256 * high.toNat = file.length + 5 ∧ file.length + 5 ≤ bufferSize ∧
      after.outgoing.output.bytes = before.outgoing.output.bytes ++
        low :: high :: 1 :: key.toUInt8 :: (key >>> 8).toUInt8 :: file

theorem encoded_sent (tick : Nat) (client : ClientLink) (input : SendInput) (bytes : List UInt8)
    (count : Nat) (encoded : encoding input.format input.args = some bytes)
    (counted : bytes.length = count) (isOpen : ¬ client.mode = .close) (filled : count ≠ 0)
    (fits : count ≤ 20478) :
    ∃ after, CSocketServerEx.send tick client input =
        some { client with outgoing := after, lastIO := tick } ∧
      after.output.bytes = client.outgoing.output.bytes ++
        UInt8.ofInt ((count : Int) + 2) ::
          UInt8.ofInt (((count : Int) + 2) >>> (8 : Nat)) :: bytes := by
  subst counted
  rcases assemble_spec input.recycled 2 (bufferSize - 2) _ _ _ encoded with
    ⟨_, assembled⟩ | ⟨excess, _⟩
  · obtain ⟨after, sent, queued⟩ := CSocketServerEx.send_filled tick client input
      (store input.recycled 2 bytes) bytes.length assembled isOpen
      filled (by unfold bufferSize; omega)
    rw [slice_store_same] at queued
    exact ⟨after, sent, queued⟩
  · unfold bufferSize at excess
    omega

theorem reply_sent (tick : Nat) (client : ClientLink) (object : Nat)
    (recycled : Nat → UInt8) (command code : UInt8) (isOpen : ¬ client.mode = .close) :
    ∃ after, CSocketServerEx.send tick client (reply object recycled command code) =
        some { client with outgoing := after, lastIO := tick } ∧
      after.output.bytes = client.outgoing.output.bytes ++ [4, 0, command, code] := by
  have encoded : encoding (reply object recycled command code).format
      (reply object recycled command code).args = some [command, code] := by
    change some ([shiftedChar command.toUInt32.toInt32 0] ++
      ([shiftedChar code.toUInt32.toInt32 0] ++ [])) = _
    rw [shiftedChar_byte, shiftedChar_byte]
    rfl
  obtain ⟨after, sent, bytes⟩ := encoded_sent tick client (reply object recycled command code)
    [command, code] 2 encoded rfl isOpen (by decide) (by decide)
  exact ⟨after, sent, bytes⟩

/-- The frame of a resource: two length bytes, three bytes of header, the file. -/
theorem resource_contents (recycled : Nat → UInt8) (len : Int) (header sendmsg : List UInt8)
    (three : header.length = 3) :
    slice (store (storeLength (store recycled 5 sendmsg) len) 2 header) 0
        (2 + (3 + sendmsg.length)) =
      UInt8.ofInt len :: UInt8.ofInt (len >>> (8 : Nat)) :: (header ++ sendmsg) := by
  have lengthBytes : slice (store (storeLength (store recycled 5 sendmsg) len) 2 header) 0 2 =
      [UInt8.ofInt len, UInt8.ofInt (len >>> (8 : Nat))] := by
    rw [slice_store_before _ 0 2 2 header (Nat.le_refl 2)]
    exact slice_store_same _ 0 [UInt8.ofInt len, UInt8.ofInt (len >>> (8 : Nat))]
  have headerBytes : slice (store (storeLength (store recycled 5 sendmsg) len) 2 header) 2 3 =
      header := by
    have whole := slice_store_same (storeLength (store recycled 5 sendmsg) len) 2 header
    rw [three] at whole
    exact whole
  have body : slice (store (storeLength (store recycled 5 sendmsg) len) 2 header) 5
      sendmsg.length = sendmsg := by
    rw [slice_store_after _ 5 _ 2 header (by omega), storeLength,
      slice_store_after _ 5 _ 0 [UInt8.ofInt len, UInt8.ofInt (len >>> (8 : Nat))]
        (Nat.le_of_ble_eq_true rfl)]
    exact slice_store_same recycled 5 sendmsg
  rw [slice_append, slice_append, Nat.zero_add, lengthBytes, headerBytes, body]
  rfl

theorem resource_sent (client : ClientLink) (object : Nat) (recycled : Nat → UInt8)
    (key : UInt16) (file : List UInt8) (isOpen : ¬ client.mode = .close)
    (fits : file.length + 5 ≤ bufferSize) :
    ∃ after, CSocketServerEx.sendResource client object recycled 1 key file file.length =
        some { client with outgoing := after } ∧
      after.output.bytes = client.outgoing.output.bytes ++
        UInt8.ofInt ((file.length + 5 : Nat) : Int) ::
          UInt8.ofInt (((file.length + 5 : Nat) : Int) >>> (8 : Nat)) ::
            1 :: key.toUInt8 :: (key >>> 8).toUInt8 :: file := by
  have len : (file.length : Int) + 1 + 2 + 2 = ((file.length + 5 : Nat) : Int) := by omega
  have filled : 2 + (3 + file.length) ≠ 0 := by omega
  have within : 2 + (3 + file.length) ≤ bufferSize := by omega
  have size : dword ((file.length + 5 : Nat) : Int) = 2 + (3 + file.length) := by
    rw [dword_of_nat _ (by unfold bufferSize at fits; omega)]
    omega
  obtain ⟨after, wrote, bytes⟩ := (client.outgoing.alloc object).write_bytes object
    { buffer := store (storeLength (store recycled 5 file) ((file.length + 5 : Nat) : Int)) 2
        [shiftedChar 1 0, key.toUInt8, (key >>> 8).toUInt8]
      size := 2 + (3 + file.length), ref := 1 } filled within
  refine ⟨after, ?_, ?_⟩
  · unfold CSocketServerEx.sendResource
    rw [if_neg isOpen, if_neg (by omega)]
    simp only [len, size, List.take_length, wrote, Option.map_some]
  · rw [bytes, CIOBuffer.contents, resource_contents recycled _ _ file rfl]
    rfl

section Handler

variable (files : FileSystem) (serverVersion : Int) (tick : Nat) (client : ClientLink)
  (object : Nat) (recycled packet : Nat → UInt8)

/-- What is owed to one version-selection packet. -/
def Answered : Prop :=
  ∃ config, Config.load files serverVersion = some config ∧
    ∃ after, CPacketServerEx.onIOCallback config tick client object recycled packet =
        some after ∧
      (ErrorReply client after ∨
        ∃ file, Config.fileFor files serverVersion (getShortFromPacket packet).toNat =
            some file ∧ Served client after (getShortFromPacket packet) file) ∧
      (Config.fileFor files serverVersion (getShortFromPacket packet).toNat = none →
        ErrorReply client after)

/-- The key is above the version, or its file is there and leaves room for the
five bytes in front of it. -/
def Answerable : Prop :=
  serverVersion < 1000000 ∧
    (((getShortFromPacket packet).toNat : Int) > serverVersion ∨
      ∃ file, Config.fileFor files serverVersion (getShortFromPacket packet).toNat =
        some file ∧ file.length ≤ 20475)

end Handler

theorem beyond_refused (config : Config) (tick : Nat) (client : ClientLink) (object : Nat)
    (recycled packet : Nat → UInt8) (isOpen : ¬ client.mode = .close)
    (beyond : ((getShortFromPacket packet).toNat : Int) > config.serverVersion) :
    ∃ after, CPacketServerEx.onIOCallback config tick client object recycled packet =
      some after ∧ ErrorReply client after := by
  obtain ⟨after, sent, bytes⟩ := reply_sent tick { client with lastIO := tick } object recycled
    255 sLimitExceed isOpen
  refine ⟨{ client with mode := .close, lastIO := tick, outgoing := after }, ?_, rfl,
    sLimitExceed, Or.inl rfl, bytes⟩
  unfold CPacketServerEx.onIOCallback selectClientVersion
  simp only [if_pos beyond, sent, Option.map_some, if_true]

/-- A key without a resource is looked up all the same, and the null pointer is
dereferenced. -/
theorem missing_undefined (config : Config) (tick : Nat) (client : ClientLink) (object : Nat)
    (recycled packet : Nat → UInt8)
    (within : ¬ ((getShortFromPacket packet).toNat : Int) > config.serverVersion)
    (missing : config.getClientResourceById (getShortFromPacket packet).toNat = none) :
    CPacketServerEx.onIOCallback config tick client object recycled packet = none := by
  unfold CPacketServerEx.onIOCallback selectClientVersion
  simp only [if_neg within, missing, Option.map_none]

theorem present_sent (config : Config) (tick : Nat) (client : ClientLink) (object : Nat)
    (recycled packet : Nat → UInt8) (file : List UInt8)
    (within : ¬ ((getShortFromPacket packet).toNat : Int) > config.serverVersion)
    (present : config.getClientResourceById (getShortFromPacket packet).toNat =
      some ⟨file.length, some file⟩) :
    CPacketServerEx.onIOCallback config tick client object recycled packet =
      CSocketServerEx.sendResource { client with lastIO := tick } object recycled 1
        (getShortFromPacket packet) file file.length := by
  unfold CPacketServerEx.onIOCallback selectClientVersion
  simp only [if_neg within, present, Option.map_map]
  cases CSocketServerEx.sendResource { client with lastIO := tick } object recycled 1
    (getShortFromPacket packet) file file.length with
  | none => rfl
  | some after => rfl

section Loaded

variable (files : FileSystem) (serverVersion : Int) (config : Config) (tick : Nat)
  (client : ClientLink) (object : Nat) (recycled packet : Nat → UInt8)

/-- The same of the handler, once the server has loaded its resources. -/
def Handled : Prop :=
  ∃ after, CPacketServerEx.onIOCallback config tick client object recycled packet =
      some after ∧
    (ErrorReply client after ∨
      ∃ file, Config.fileFor files serverVersion (getShortFromPacket packet).toNat =
          some file ∧ Served client after (getShortFromPacket packet) file) ∧
    (Config.fileFor files serverVersion (getShortFromPacket packet).toNat = none →
      ErrorReply client after)

theorem answered_iff_handled (loaded : Config.load files serverVersion = some config) :
    Answered files serverVersion tick client object recycled packet ↔
      Handled files serverVersion config tick client object recycled packet := by
  constructor
  · intro answered
    obtain ⟨other, same, handled⟩ := answered
    rw [loaded, Option.some.injEq] at same
    rw [same]
    exact handled
  · intro handled
    exact ⟨config, loaded, handled⟩

theorem beyond_handled (isOpen : ¬ client.mode = .close)
    (beyond : ((getShortFromPacket packet).toNat : Int) > config.serverVersion) :
    Handled files serverVersion config tick client object recycled packet := by
  obtain ⟨after, ran, refused⟩ :=
    beyond_refused config tick client object recycled packet isOpen beyond
  exact ⟨after, ran, Or.inl refused, fun _ => refused⟩

theorem missing_not_handled
    (within : ¬ ((getShortFromPacket packet).toNat : Int) > config.serverVersion)
    (missing : config.getClientResourceById (getShortFromPacket packet).toNat = none) :
    ¬ Handled files serverVersion config tick client object recycled packet := by
  intro handled
  obtain ⟨after, ran, _⟩ := handled
  rw [missing_undefined config tick client object recycled packet within missing] at ran
  contradiction

theorem present_handled_iff (file : List UInt8) (isOpen : ¬ client.mode = .close)
    (within : ¬ ((getShortFromPacket packet).toNat : Int) > config.serverVersion)
    (found : Config.fileFor files serverVersion (getShortFromPacket packet).toNat = some file)
    (present : config.getClientResourceById (getShortFromPacket packet).toNat =
      some ⟨file.length, some file⟩) :
    Handled files serverVersion config tick client object recycled packet ↔
      file.length ≤ 20475 := by
  have sends := present_sent config tick client object recycled packet file within present
  constructor
  · intro handled
    obtain ⟨after, ran, _⟩ := handled
    by_contra large
    have overrun : CSocketServerEx.sendResource { client with lastIO := tick } object recycled
        1 (getShortFromPacket packet) file file.length = none := by
      unfold CSocketServerEx.sendResource
      rw [if_neg isOpen, if_pos (by unfold bufferSize; omega)]
    rw [sends, overrun] at ran
    contradiction
  · intro fits
    have room : file.length + 5 ≤ bufferSize := by
      unfold bufferSize
      omega
    obtain ⟨after, sent, bytes⟩ := resource_sent { client with lastIO := tick } object
      recycled (getShortFromPacket packet) file isOpen room
    have length := lengthBytes_value (file.length + 5) (by omega)
    refine ⟨_, sends.trans sent, Or.inr ⟨file, found, rfl, _, _, length, room, bytes⟩, ?_⟩
    intro absent
    rw [found] at absent
    contradiction

end Loaded

/-- On an open connection the packet is answered as it should be for exactly
these files and keys. -/
theorem answered_iff (files : FileSystem) (serverVersion : Int) (tick : Nat)
    (client : ClientLink) (object : Nat) (recycled packet : Nat → UInt8)
    (isOpen : ¬ client.mode = .close) :
    Answered files serverVersion tick client object recycled packet ↔
      Answerable files serverVersion packet := by
  by_cases small : serverVersion < 1000000
  · obtain ⟨config, loaded, version, entries⟩ := Config.load_spec files serverVersion small
    have entry := entries (getShortFromPacket packet).toNat
    rw [answered_iff_handled files serverVersion config tick client object recycled packet
      loaded]
    by_cases beyond : ((getShortFromPacket packet).toNat : Int) > serverVersion
    · have handled := beyond_handled files serverVersion config tick client object recycled
        packet isOpen (version.symm ▸ beyond)
      exact iff_of_true handled ⟨small, Or.inl beyond⟩
    · have within : ¬ ((getShortFromPacket packet).toNat : Int) > config.serverVersion :=
        version.symm ▸ beyond
      cases found : Config.fileFor files serverVersion (getShortFromPacket packet).toNat with
      | none =>
          rw [found, Option.map_none] at entry
          apply iff_of_false
          · exact missing_not_handled files serverVersion config tick client object recycled
              packet within entry
          · intro answerable
            rcases answerable.2 with above | ⟨file, same, _⟩
            · exact beyond above
            · rw [found] at same
              contradiction
      | some file =>
          rw [found, Option.map_some] at entry
          rw [present_handled_iff files serverVersion config tick client object recycled packet
            file isOpen within found entry]
          constructor
          · intro fits
            exact ⟨small, Or.inr ⟨file, found, fits⟩⟩
          · intro answerable
            rcases answerable.2 with above | ⟨other, same, fits⟩
            · exact absurd above beyond
            · rw [found, Option.some.injEq] at same
              rw [same]
              exact fits
  · apply iff_of_false
    · intro answered
      obtain ⟨config, loaded, _⟩ := answered
      rw [Config.load_overrun files serverVersion small] at loaded
      contradiction
    · exact fun answerable => small answerable.1

/-- Key 2 where the server has version 1. -/
theorem key_beyond_version_answered :
    Answered (fun _ => none) 1 0
      ⟨.readLen, .preLogin, 0, none, 0, ⟨OutputQueue.empty, []⟩⟩ 0 (fun _ => 0)
      (fun index => if index = 0 then 2 else 0) := by
  apply (answered_iff (fun _ => none) 1 0
    ⟨.readLen, .preLogin, 0, none, 0, ⟨OutputQueue.empty, []⟩⟩ 0 (fun _ => 0)
    (fun index => if index = 0 then 2 else 0) (by decide)).mpr
  exact ⟨by decide, Or.inl (by decide)⟩

/-- Key 0 of a client whose server has no resources at all. -/
theorem key_zero_unanswered :
    ¬ ∀ (files : FileSystem) (serverVersion : Int) (tick : Nat) (client : ClientLink)
      (object : Nat) (recycled packet : Nat → UInt8), ¬ client.mode = .close →
        Answered files serverVersion tick client object recycled packet := by
  intro claimed
  obtain ⟨config, loaded, after, ran, _⟩ := claimed (fun _ => none) 0 0
    ⟨.readLen, .preLogin, 0, none, 0, ⟨OutputQueue.empty, []⟩⟩ 0 (fun _ => 0) (fun _ => 0)
    (by decide)
  obtain rfl : (⟨0, OrderedMap.empty⟩ : Config) = config := Option.some.inj loaded
  rw [missing_undefined _ _ _ _ _ _ (by decide) rfl] at ran
  contradiction

end AuthServer
