/-
The queue sizes of the world servers and the packet that lists them.

`CServerList` keeps one vector for each server id, with a size and a waiting
time for each queue level, and grows it when a higher level is recorded.  The
packet writes all of them one behind the other; the number of entries and the
level of each entry are single bytes.
-/

import AuthServer.PacketReader
import AuthServer.ServerList
import Mathlib.Algebra.Order.BigOperators.Group.Finset

set_option autoImplicit false

namespace AuthServer

def acQueueSize : UInt8 := 11

abbrev QueueSizes := OrderedMap ServerId (List (Int32 × Int32))

structure QueueCall where
  id : ServerId
  queueLevel : Int32
  queueSize : Int32
  queueTime : Int32

namespace QueueSizes

def record (queueSizes : List (Int32 × Int32)) (level : Nat) (value : Int32 × Int32) :
    List (Int32 × Int32) :=
  let grown :=
    if queueSizes.length < level + 1 then
      queueSizes ++ List.replicate (level + 1 - queueSizes.length) (0, 0)
    else queueSizes
  grown.set level value

/-- A level of 2 ^ 31 - 1 overflows and has no result. -/
def setServerQueueSize (sizes : QueueSizes) (call : QueueCall) : Option QueueSizes :=
  if call.queueLevel < 0 then some sizes
  else if call.queueLevel = Int32.maxValue then none
  else
    some ((sizes.insert call.id []).modify call.id fun queueSizes =>
      record queueSizes call.queueLevel.toInt.toNat (call.queueSize, call.queueTime))

def setAll : QueueSizes → List QueueCall → Option QueueSizes
  | sizes, [] => some sizes
  | sizes, call :: rest => (setServerQueueSize sizes call).bind fun sizes => setAll sizes rest

def pushInt (buffer : List UInt8) (value : Int32) : List UInt8 :=
  buffer ++ [shiftedChar value 0, shiftedChar value 8, shiftedChar value 16, shiftedChar value 24]

/-- The buffer with the count so far, and the level of the next entry. -/
structure Listing where
  buffer : List UInt8
  count : UInt8
  queueLevel : UInt8

def listLevel (id : ServerId) (listing : Listing) (queue : Int32 × Int32) : Listing :=
  let buffer := listing.buffer ++ [id.value, listing.queueLevel]
  { buffer := pushInt (pushInt buffer queue.1) queue.2
    count := listing.count + 1
    queueLevel := listing.queueLevel + 1 }

def listServer (listing : Listing) (entry : ServerId × List (Int32 × Int32)) : Listing :=
  entry.2.foldl (listLevel entry.1) { listing with queueLevel := 0 }

def makeQueueSizePacket (sizes : QueueSizes) (buffer : List UInt8) : List UInt8 :=
  let listing := sizes.entries.foldl listServer ⟨buffer ++ [0, 0, acQueueSize, 0], 0, 0⟩
  listing.buffer.set 3 listing.count

end QueueSizes

/-! ### The layout of the packet -/

structure QueueEntry where
  server : UInt8
  level : UInt8
  size : Int32
  time : Int32
  deriving DecidableEq

namespace QueueEntry

def bytes (entry : QueueEntry) : List UInt8 :=
  [entry.server, entry.level] ++
    [shiftedChar entry.size 0, shiftedChar entry.size 8, shiftedChar entry.size 16,
      shiftedChar entry.size 24] ++
    [shiftedChar entry.time 0, shiftedChar entry.time 8, shiftedChar entry.time 16,
      shiftedChar entry.time 24]

/-- As many entries as the count says, and nothing behind them. -/
def decodeEntries : Nat → List UInt8 → Option (List QueueEntry)
  | 0, [] => some []
  | count + 1, server :: level :: s1 :: s2 :: s3 :: s4 :: t1 :: t2 :: t3 :: t4 :: rest =>
      (decodeEntries count rest).map fun entries =>
        ⟨server, level, (word s4 s3 s2 s1).toInt32, (word t4 t3 t2 t1).toInt32⟩ :: entries
  | _, _ => none

def decodePacket : List UInt8 → Option (List QueueEntry)
  | _ :: _ :: opcode :: count :: rest =>
      if opcode = acQueueSize then decodeEntries count.toNat rest else none
  | _ => none

end QueueEntry

/-! ### What the calls have recorded -/

def QueueCall.levels (call : QueueCall) (id : ServerId) : Nat :=
  if call.id = id ∧ 0 ≤ call.queueLevel.toInt then call.queueLevel.toInt.toNat + 1 else 0

def recordedLevels (calls : List QueueCall) (id : ServerId) : Nat :=
  calls.foldl (fun levels call => max levels (call.levels id)) 0

def lastRecorded (calls : List QueueCall) (id : ServerId) (level : Nat) : Int32 × Int32 :=
  ((calls.filter fun call => call.id = id ∧ call.queueLevel.toInt = (level : Int)).getLast?.map
    fun call => (call.queueSize, call.queueTime)).getD (0, 0)

instance : Fintype ServerId :=
  Fintype.ofEquiv (Fin 256)
    { toFun := fun value => ⟨UInt8.ofFin value⟩
      invFun := fun id => id.value.toFin
      left_inv := fun _ => rfl
      right_inv := fun _ => rfl }

def totalLevels (calls : List QueueCall) : Nat := ∑ id, recordedLevels calls id

/-- The packet lists every recorded level once, as it was last recorded, and
nothing else. -/
def ListsRecorded (calls : List QueueCall) : Prop :=
  ∃ sizes entries, QueueSizes.setAll OrderedMap.empty calls = some sizes ∧
    QueueEntry.decodePacket (sizes.makeQueueSizePacket []) = some entries ∧
    (∀ id level, level < recordedLevels calls id →
      (entries.filter fun entry => entry.server = id.value ∧ entry.level.toNat = level) =
        [⟨id.value, level.toUInt8, (lastRecorded calls id level).1,
          (lastRecorded calls id level).2⟩]) ∧
    ∀ entry ∈ entries, entry.level.toNat < recordedLevels calls ⟨entry.server⟩

/-! ### The table against the calls -/

theorem recordedLevels_append (calls : List QueueCall) (call : QueueCall) (id : ServerId) :
    recordedLevels (calls ++ [call]) id = max (recordedLevels calls id) (call.levels id) := by
  unfold recordedLevels
  rw [List.foldl_append]
  rfl

theorem lastRecorded_append (calls : List QueueCall) (call : QueueCall) (id : ServerId)
    (level : Nat) :
    lastRecorded (calls ++ [call]) id level =
      if call.id = id ∧ call.queueLevel.toInt = (level : Int) then
        (call.queueSize, call.queueTime)
      else lastRecorded calls id level := by
  unfold lastRecorded
  rw [List.filter_append, List.filter_singleton]
  by_cases here : call.id = id ∧ call.queueLevel.toInt = (level : Int)
  · rw [if_pos here, decide_eq_true here, List.getLast?_append]
    rfl
  · rw [if_neg here, decide_eq_false here, cond_false, List.append_nil]

theorem lastRecorded_beyond (calls : List QueueCall) (id : ServerId) (level : Nat)
    (beyond : recordedLevels calls id ≤ level) : lastRecorded calls id level = (0, 0) := by
  induction calls using List.reverseRecOn with
  | nil => rfl
  | append_singleton calls call ih =>
      rw [recordedLevels_append] at beyond
      rw [lastRecorded_append, if_neg, ih (by omega)]
      intro here
      have counted : call.levels id = level + 1 := by
        unfold QueueCall.levels
        rw [if_pos ⟨here.1, by omega⟩]
        omega
      omega

/-- Every vector holds what was last recorded for each of its levels. -/
def Records (calls : List QueueCall) (sizes : QueueSizes) : Prop :=
  ∀ id, sizes.find? id =
    if recordedLevels calls id = 0 then none
    else some ((List.range (recordedLevels calls id)).map (lastRecorded calls id))

theorem record_range (value : Int32 × Int32) (count level : Nat)
    (old : Nat → Int32 × Int32) (beyond : ∀ index, count ≤ index → old index = (0, 0)) :
    QueueSizes.record ((List.range count).map old) level value =
      (List.range (max count (level + 1))).map fun index =>
        if level = index then value else old index := by
  have grown : (if ((List.range count).map old).length < level + 1 then
      (List.range count).map old ++
        List.replicate (level + 1 - ((List.range count).map old).length) (0, 0)
      else (List.range count).map old) = (List.range (max count (level + 1))).map old := by
    rw [List.length_map, List.length_range]
    split
    · rename_i short
      have whole : max count (level + 1) = count + (level + 1 - count) := by omega
      rw [whole, List.range_add, List.map_append, List.map_map]
      congr 1
      symm
      apply List.eq_replicate_iff.mpr
      refine ⟨by rw [List.length_map, List.length_range], ?_⟩
      intro entry member
      obtain ⟨index, _, rfl⟩ := List.mem_map.mp member
      exact beyond (count + index) (Nat.le_add_right count index)
    · rw [max_eq_left (by omega)]
  unfold QueueSizes.record
  simp only
  rw [grown]
  apply List.ext_getElem
  · rw [List.length_set, List.length_map, List.length_map]
  · intro index _ _
    rw [List.getElem_set, List.getElem_map, List.getElem_map, List.getElem_range]

theorem records_step (calls : List QueueCall) (call : QueueCall) (sizes next : QueueSizes)
    (records : Records calls sizes) (stepped : sizes.setServerQueueSize call = some next) :
    Records (calls ++ [call]) next := by
  intro id
  rw [recordedLevels_append]
  unfold QueueSizes.setServerQueueSize at stepped
  split at stepped
  · rename_i negative
    cases stepped
    have below : call.queueLevel.toInt < 0 := Int32.lt_iff_toInt_lt.mp negative
    have nothing : call.levels id = 0 := if_neg (by omega)
    have same : lastRecorded (calls ++ [call]) id = lastRecorded calls id := by
      funext level
      rw [lastRecorded_append, if_neg (by omega)]
    rw [nothing, Nat.max_zero, same]
    exact records id
  · rename_i notNegative
    split at stepped
    · contradiction
    · cases stepped
      have lower : 0 ≤ call.queueLevel.toInt :=
        Int.not_lt.mp fun below => notNegative (Int32.lt_iff_toInt_lt.mpr below)
      rw [OrderedMap.find?_modify, OrderedMap.find?_insert, OrderedMap.find?_insert]
      by_cases own : id = call.id
      · subst own
        have vector : (sizes.find? call.id).getD [] =
            (List.range (recordedLevels calls call.id)).map (lastRecorded calls call.id) := by
          rw [records call.id]
          split
          · rename_i zero
            rw [zero]
            rfl
          · rfl
        have levels : call.levels call.id = call.queueLevel.toInt.toNat + 1 :=
          if_pos ⟨rfl, lower⟩
        rw [if_pos rfl, if_pos rfl, vector, Option.map_some, levels, if_neg (by omega),
          record_range _ _ _ _ fun index beyond => lastRecorded_beyond calls call.id index beyond]
        congr 2
        funext index
        rw [lastRecorded_append]
        by_cases here : call.queueLevel.toInt.toNat = index
        · rw [if_pos here, if_pos ⟨rfl, by omega⟩]
        · rw [if_neg here, if_neg (by omega)]
      · have nothing : call.levels id = 0 := if_neg fun here => own here.1.symm
        have same : lastRecorded (calls ++ [call]) id = lastRecorded calls id := by
          funext level
          rw [lastRecorded_append, if_neg fun here => own here.1.symm]
        rw [if_neg own, if_neg own, nothing, Nat.max_zero, same]
        exact records id

theorem records_all (rest : List QueueCall) (calls : List QueueCall)
    (sizes final : QueueSizes) (records : Records calls sizes)
    (ran : sizes.setAll rest = some final) : Records (calls ++ rest) final := by
  induction rest generalizing calls sizes with
  | nil =>
      cases ran
      rw [List.append_nil]
      exact records
  | cons call rest ih =>
      obtain ⟨next, stepped, later⟩ := Option.bind_eq_some_iff.mp ran
      rw [← List.singleton_append, ← List.append_assoc]
      exact ih (calls ++ [call]) next (records_step calls call sizes next records stepped) later

/-! ### The packet against the table -/

def serverEntries (id : ServerId) : Nat → List (Int32 × Int32) → List QueueEntry
  | _, [] => []
  | level, queue :: rest =>
      ⟨id.value, level.toUInt8, queue.1, queue.2⟩ :: serverEntries id (level + 1) rest

def QueueSizes.listed (sizes : QueueSizes) : List QueueEntry :=
  sizes.entries.flatMap fun entry => serverEntries entry.1 0 entry.2

theorem serverEntries_length (id : ServerId) (level : Nat) (queues : List (Int32 × Int32)) :
    (serverEntries id level queues).length = queues.length := by
  induction queues generalizing level with
  | nil => rfl
  | cons queue rest ih => rw [serverEntries, List.length_cons, ih, List.length_cons]

theorem serverEntries_range (id : ServerId) (level count : Nat) (queue : Nat → Int32 × Int32) :
    serverEntries id level ((List.range' level count).map queue) =
      (List.range' level count).map fun index =>
        ⟨id.value, index.toUInt8, (queue index).1, (queue index).2⟩ := by
  induction count generalizing level with
  | zero => rfl
  | succ count ih =>
      rw [List.range'_succ, List.map_cons, List.map_cons, serverEntries, ih]

theorem listLevel_eq (id : ServerId) (buffer : List UInt8) (count level : Nat)
    (queue : Int32 × Int32) :
    QueueSizes.listLevel id ⟨buffer, count.toUInt8, level.toUInt8⟩ queue =
      ⟨buffer ++ QueueEntry.bytes ⟨id.value, level.toUInt8, queue.1, queue.2⟩,
        (count + 1).toUInt8, (level + 1).toUInt8⟩ := by
  have next : ∀ value : Nat, value.toUInt8 + 1 = (value + 1).toUInt8 := fun value =>
    (UInt8.ofNat_add value 1).symm
  simp only [QueueSizes.listLevel, QueueSizes.pushInt, QueueEntry.bytes, List.append_assoc, next]

theorem foldl_listLevel (id : ServerId) (queues : List (Int32 × Int32))
    (buffer : List UInt8) (count level : Nat) :
    queues.foldl (QueueSizes.listLevel id) ⟨buffer, count.toUInt8, level.toUInt8⟩ =
      ⟨buffer ++ (serverEntries id level queues).flatMap QueueEntry.bytes,
        (count + queues.length).toUInt8, (level + queues.length).toUInt8⟩ := by
  induction queues generalizing buffer count level with
  | nil =>
      rw [serverEntries, List.flatMap_nil, List.append_nil]
      rfl
  | cons queue rest ih =>
      rw [List.foldl_cons, listLevel_eq, ih, serverEntries, List.flatMap_cons,
        List.length_cons, List.append_assoc, Nat.add_assoc, Nat.add_assoc, Nat.add_comm 1]

theorem foldl_listServer (entries : List (ServerId × List (Int32 × Int32)))
    (buffer : List UInt8) (count : Nat) (queueLevel : UInt8) :
    ∃ last, entries.foldl QueueSizes.listServer ⟨buffer, count.toUInt8, queueLevel⟩ =
      ⟨buffer ++ (entries.flatMap fun entry => serverEntries entry.1 0 entry.2).flatMap
          QueueEntry.bytes,
        (count + (entries.flatMap fun entry =>
          serverEntries entry.1 0 entry.2).length).toUInt8, last⟩ := by
  induction entries generalizing buffer count queueLevel with
  | nil =>
      rw [List.flatMap_nil, List.flatMap_nil, List.append_nil]
      exact ⟨queueLevel, rfl⟩
  | cons entry rest ih =>
      have server := foldl_listLevel entry.1 entry.2 buffer count 0
      obtain ⟨last, others⟩ := ih (buffer ++ (serverEntries entry.1 0 entry.2).flatMap
        QueueEntry.bytes) (count + entry.2.length) (0 + entry.2.length).toUInt8
      refine ⟨last, ?_⟩
      rw [List.foldl_cons]
      change rest.foldl QueueSizes.listServer (entry.2.foldl (QueueSizes.listLevel entry.1)
        ⟨buffer, count.toUInt8, (0 : Nat).toUInt8⟩) = _
      rw [server, others, List.flatMap_cons, List.flatMap_append, List.length_append,
        serverEntries_length, List.append_assoc, Nat.add_assoc]

theorem makeQueueSizePacket_eq (sizes : QueueSizes) :
    sizes.makeQueueSizePacket [] =
      0 :: 0 :: acQueueSize :: sizes.listed.length.toUInt8 ::
        sizes.listed.flatMap QueueEntry.bytes := by
  obtain ⟨last, listing⟩ := foldl_listServer sizes.entries [0, 0, acQueueSize, 0] 0 0
  unfold QueueSizes.makeQueueSizePacket
  change (sizes.entries.foldl QueueSizes.listServer
    ⟨[0, 0, acQueueSize, 0], (0 : Nat).toUInt8, 0⟩).buffer.set 3
      (sizes.entries.foldl QueueSizes.listServer
        ⟨[0, 0, acQueueSize, 0], (0 : Nat).toUInt8, 0⟩).count = _
  rw [listing, Nat.zero_add]
  rfl

namespace QueueEntry

/-- Exactly as many entries as there are can be read. -/
theorem decodeEntries_bytes (entries : List QueueEntry) (count : Nat) :
    decodeEntries count (entries.flatMap bytes) =
      if count = entries.length then some entries else none := by
  induction entries generalizing count with
  | nil =>
      cases count with
      | zero => rfl
      | succ count => rfl
  | cons entry rest ih =>
      cases count with
      | zero => rfl
      | succ count =>
          have read : decodeEntries (count + 1) ((entry :: rest).flatMap bytes) =
              (decodeEntries count (rest.flatMap bytes)).map fun entries =>
                ⟨entry.server, entry.level,
                  (word (shiftedChar entry.size 24) (shiftedChar entry.size 16)
                    (shiftedChar entry.size 8) (shiftedChar entry.size 0)).toInt32,
                  (word (shiftedChar entry.time 24) (shiftedChar entry.time 16)
                    (shiftedChar entry.time 8) (shiftedChar entry.time 0)).toInt32⟩ ::
                  entries := rfl
          rw [read, ih, PacketReader.int_restored, PacketReader.int_restored, List.length_cons]
          by_cases same : count = rest.length
          · rw [if_pos same, if_pos (congrArg Nat.succ same)]
            rfl
          · rw [if_neg same, if_neg fun more => same (Nat.succ.inj more)]
            rfl

theorem decodePacket_made (sizes : QueueSizes) :
    decodePacket (sizes.makeQueueSizePacket []) =
      if sizes.listed.length ≤ 255 then some sizes.listed else none := by
  have count : sizes.listed.length.toUInt8.toNat = sizes.listed.length % 256 :=
    UInt8.toNat_ofNat'
  rw [makeQueueSizePacket_eq]
  simp only [decodePacket, if_true]
  rw [decodeEntries_bytes, count]
  by_cases few : sizes.listed.length ≤ 255
  · rw [if_pos few, if_pos (Nat.mod_eq_of_lt (Nat.lt_succ_of_le few))]
  · rw [if_neg few, if_neg (by omega)]

end QueueEntry

/-! ### All calls -/

theorem listed_length (calls : List QueueCall) (sizes : QueueSizes)
    (records : Records calls sizes) : sizes.listed.length = totalLevels calls := by
  have lengths : sizes.listed.length = (sizes.entries.map fun entry => entry.2.length).sum := by
    unfold QueueSizes.listed
    rw [List.length_flatMap]
    simp only [serverEntries_length]
  rw [lengths, ← sizes.sum_find? List.length]
  apply Finset.sum_congr rfl
  intro id _
  rw [records id]
  split
  · rename_i zero
    exact zero.symm
  · rw [Option.map_some, Option.getD_some, List.length_map, List.length_range]

theorem levels_le_recorded (calls : List QueueCall) (call : QueueCall) (id : ServerId)
    (member : call ∈ calls) : call.levels id ≤ recordedLevels calls id := by
  induction calls using List.reverseRecOn with
  | nil => cases member
  | append_singleton calls last ih =>
      rw [recordedLevels_append]
      rcases List.mem_append.mp member with earlier | atEnd
      · exact le_trans (ih earlier) (le_max_left _ _)
      · rw [List.mem_singleton.mp atEnd]
        exact le_max_right _ _

theorem recordedLevels_le_total (calls : List QueueCall) (id : ServerId) :
    recordedLevels calls id ≤ totalLevels calls :=
  Finset.single_le_sum (fun _ _ => Nat.zero_le _) (Finset.mem_univ id)

theorem setAll_defined (calls : List QueueCall) (sizes : QueueSizes)
    (noOverflow : ∀ call ∈ calls, call.queueLevel ≠ Int32.maxValue) :
    ∃ final, sizes.setAll calls = some final := by
  induction calls generalizing sizes with
  | nil => exact ⟨sizes, rfl⟩
  | cons call rest ih =>
      have others : ∀ other ∈ rest, other.queueLevel ≠ Int32.maxValue := fun other member =>
        noOverflow other (List.mem_cons_of_mem call member)
      unfold QueueSizes.setAll QueueSizes.setServerQueueSize
      split
      · exact ih sizes others
      · rw [if_neg (noOverflow call List.mem_cons_self)]
        exact ih _ others

theorem noOverflow_of_total (calls : List QueueCall) (few : totalLevels calls ≤ 255)
    (call : QueueCall) (member : call ∈ calls) : call.queueLevel ≠ Int32.maxValue := by
  intro greatest
  have levels : call.levels call.id = 2 ^ 31 := by
    unfold QueueCall.levels
    rw [greatest]
    exact if_pos ⟨rfl, by decide⟩
  have recorded := levels_le_recorded calls call call.id member
  have total := recordedLevels_le_total calls call.id
  omega

theorem filter_range_level (count level : Nat) (inside : level < count) :
    (List.range count).filter (fun index => index = level) = [level] := by
  rw [List.filter_eq, List.count_eq_one_of_mem List.nodup_range (List.mem_range.mpr inside)]
  rfl

theorem listed_entry (calls : List QueueCall) (sizes : QueueSizes)
    (records : Records calls sizes) (id : ServerId) (level : Nat)
    (inside : level < recordedLevels calls id) (few : recordedLevels calls id ≤ 256) :
    (sizes.listed.filter fun entry => entry.server = id.value ∧ entry.level.toNat = level) =
      [⟨id.value, level.toUInt8, (lastRecorded calls id level).1,
        (lastRecorded calls id level).2⟩] := by
  have own : ∀ entry : ServerId × List (Int32 × Int32), entry.1 ≠ id →
      (serverEntries entry.1 0 entry.2).filter
        (fun entry => entry.server = id.value ∧ entry.level.toNat = level) = [] := by
    intro entry differs
    apply List.filter_eq_nil_iff.mpr
    intro listed member
    have server : ∀ first queues, listed ∈ serverEntries entry.1 first queues →
        listed.server = entry.1.value := by
      intro first queues
      induction queues generalizing first with
      | nil => exact fun impossible => absurd impossible List.not_mem_nil
      | cons queue rest ih =>
          intro here
          rcases List.mem_cons.mp here with same | later
          · rw [same]
          · exact ih (first + 1) later
    rw [server 0 entry.2 member, decide_eq_true_iff]
    intro same
    apply differs
    cases id
    cases entry with
    | mk key queues =>
        cases key
        exact congrArg ServerId.mk same.1
  have vector : sizes.find? id =
      some ((List.range (recordedLevels calls id)).map (lastRecorded calls id)) := by
    rw [records id, if_neg (by omega)]
  unfold QueueSizes.listed
  rw [List.filter_flatMap, sizes.flatMap_find? id _ own, vector, Option.map_some,
    Option.getD_some, List.range_eq_range', serverEntries_range, ← List.range_eq_range',
    List.filter_map, List.map_eq_singleton_iff]
  refine ⟨level, ?_, rfl⟩
  rw [← filter_range_level _ level inside]
  apply List.filter_congr
  intro index member
  have bound := List.mem_range.mp member
  have value : index.toUInt8.toNat = index := by
    change index % 256 = index
    omega
  simp only [Function.comp_apply, value, true_and]

theorem listed_level (calls : List QueueCall) (sizes : QueueSizes)
    (records : Records calls sizes) (few : totalLevels calls ≤ 256) (entry : QueueEntry)
    (member : entry ∈ sizes.listed) :
    entry.level.toNat < recordedLevels calls ⟨entry.server⟩ := by
  obtain ⟨server, inTable, listed⟩ := List.mem_flatMap.mp member
  have found := sizes.find?_of_mem server.1 server.2 inTable
  rw [records server.1] at found
  split at found
  · cases found
  · have vector := Option.some.inj found
    rw [← vector, List.range_eq_range', serverEntries_range] at listed
    obtain ⟨index, inside, rfl⟩ := List.mem_map.mp listed
    have bound := (List.mem_range'_1.mp inside).2
    have total := recordedLevels_le_total calls server.1
    have value : index.toUInt8.toNat = index % 256 := UInt8.toNat_ofNat'
    have small : index.toUInt8.toNat < recordedLevels calls server.1 := by omega
    exact small

/-- The packet is right exactly as long as its count fits the one byte it has. -/
theorem listsRecorded_iff (calls : List QueueCall) :
    ListsRecorded calls ↔ totalLevels calls ≤ 255 := by
  have empty : Records [] OrderedMap.empty := fun _ => rfl
  constructor
  · intro lists
    obtain ⟨sizes, entries, ran, decoded, _⟩ := lists
    have records := records_all calls [] _ sizes empty ran
    rw [QueueEntry.decodePacket_made, listed_length calls sizes records] at decoded
    by_contra many
    rw [if_neg many] at decoded
    contradiction
  · intro few
    obtain ⟨sizes, ran⟩ := setAll_defined calls OrderedMap.empty (noOverflow_of_total calls few)
    have records := records_all calls [] _ sizes empty ran
    have total := listed_length calls sizes records
    refine ⟨sizes, sizes.listed, ran, ?_, ?_, ?_⟩
    · rw [QueueEntry.decodePacket_made, if_pos (total ▸ few)]
    · intro id level inside
      have levels := recordedLevels_le_total calls id
      exact listed_entry calls sizes records id level inside (by omega)
    · exact listed_level calls sizes records (by omega)

/-- Level 255 of one server: the count wraps to zero. -/
theorem high_level_unlisted : ¬ ListsRecorded [⟨⟨1⟩, 255, 40, 60⟩] := by
  intro lists
  obtain ⟨sizes, entries, ran, decoded, _⟩ := lists
  have records : Records [⟨⟨1⟩, 255, 40, 60⟩] sizes :=
    records_all _ [] _ sizes (fun _ => rfl) ran
  have levels : recordedLevels [⟨⟨1⟩, 255, 40, 60⟩] ⟨1⟩ = 256 := by decide
  have total := recordedLevels_le_total [⟨⟨1⟩, 255, 40, 60⟩] ⟨1⟩
  rw [QueueEntry.decodePacket_made, listed_length _ sizes records, if_neg (by omega)] at decoded
  contradiction

end AuthServer
