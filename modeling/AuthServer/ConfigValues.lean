/-
The settings that `Load` takes out of the map, with their types and defaults.

`inet_addr` is a parameter.  `atoi` gives the nearest `int`, products with 1000 wrap around, and
the build is one without `_DEBUG`.  `before` is what the reactivation window held before.
-/

import AuthServer.ConfigRemarks
import AuthServer.InAddr
import AuthServer.Reactivation

set_option autoImplicit false

namespace AuthServer

open CFormat CScan CText

/-- The fields of `Config` in the order in which `Load` sets them. -/
structure Settings where
  serverPort : Int32
  serverExPort : Int32
  serverIntPort : Int32
  worldPort : Int32
  numDBConn : Int32
  numServerThread : Int32
  numServerIntThread : Int32
  gameId : Int32
  socketTimeOut : Int32
  socketLimit : Int32
  acceptCallNum : Int32
  waitingUserLimit : Int32
  packetSizeType : Int32
  encrypt : Bool
  logDirectory : Option (List UInt8)
  protocolVer : Int32
  desApply : Bool
  readLocalServerList : Bool
  oneTimeLogOut : Bool
  gmCheckMode : Bool
  country : Int32
  userData : Bool
  devIP : Option (List UInt8)
  dumpPacket : Bool
  pcCafeFirst : Bool
  useIPServer : Bool
  ipServer : UInt32
  ipPort : Int32
  ipConnectInterval : Int32
  useLogD : Bool
  logDIP : UInt32
  logDPort : Int32
  logDReconnectInterval : Int32
  restrictGMIP : Bool
  gmIP : UInt32
  useWantedSystem : Bool
  wantedIP : UInt32
  wantedPort : Int32
  wantedReconnectInterval : Int32
  reactivation : ReactivationSettings
  reactivationValue : Int32
  ipAccessLimit : Int32
  freeServer : Bool
  hybridServer : Bool
  useForbiddenIPList : Bool
  supportReconnect : Bool
  gameServerSpecifiesId : Bool
  allowUnknownServers : Bool
  useQueue : Bool
  sendQueueLevel : Bool
  payStatOverride : Int32
  enableVerboseLogging : Bool
  enableDebugLogging : Bool
  serverVersion : Int32

namespace Config

def atoi (text : List UInt8) : Int32 := Int32.ofInt (strtol text).1

def sameText (first second : List UInt8) : Bool := lowered first = lowered second

section Get

-- What `Get` answers.
variable (find : List UInt8 → Option (List UInt8))

def getBool (key : List UInt8) (default : Bool) : Bool :=
  match find key with
  | none => default
  | some value => sameText value (ascii "yes") || sameText value (ascii "true") ||
      sameText value (ascii "1")

def getInt (key : List UInt8) (default : Int32) : Int32 :=
  match find key with
  | none => default
  | some value => atoi value

def getInetAddr (inetAddr : List UInt8 → UInt32) (key : List UInt8) : UInt32 :=
  match find key with
  | none => 0
  | some value => inetAddr value

def loadSettings (inetAddr : List UInt8 → UInt32) (ints : IntStore)
    (before : ReactivationSettings) : Settings where
  serverPort := getInt find (ascii "serverPort") 0
  serverExPort := getInt find (ascii "serverExPort") 0
  serverIntPort := getInt find (ascii "serverIntPort") 0
  worldPort := getInt find (ascii "WorldPort") 0
  numDBConn := getInt find (ascii "DBConnectionNum") 0
  numServerThread := getInt find (ascii "numServerThread") 0
  numServerIntThread := getInt find (ascii "numServerIntThread") 0
  gameId := getInt find (ascii "GameID") 0
  socketTimeOut := getInt find (ascii "SocketTimeOut") 0 * 1000
  socketLimit := getInt find (ascii "SocketLimit") 0
  acceptCallNum := getInt find (ascii "AcceptCallNum") 0
  waitingUserLimit := getInt find (ascii "WaitingUserLimit") 0
  packetSizeType := 3
  encrypt := getBool find (ascii "Encrypt") false
  logDirectory := find (ascii "logDirectory")
  protocolVer := getInt find (ascii "ProtocolVersion") 0
  desApply := getBool find (ascii "DesApply") false
  readLocalServerList := getBool find (ascii "ReadLocalServerList") false
  oneTimeLogOut := getBool find (ascii "OneTimeLogOut") false
  gmCheckMode := getBool find (ascii "GMCheckMode") false
  country := getInt find (ascii "CountryCode") 0
  userData := getBool find (ascii "UserData") false
  devIP := find (ascii "DevServerIP")
  dumpPacket := getBool find (ascii "DumpPacket") true
  pcCafeFirst := getBool find (ascii "PCCafeFirst") false
  useIPServer := getBool find (ascii "UseIPServer") false
  ipServer := getInetAddr find inetAddr (ascii "IPServer")
  ipPort := getInt find (ascii "IPPort") 0
  ipConnectInterval := getInt find (ascii "IPInterval") 0 * 1000
  useLogD := getBool find (ascii "uselogd") false
  logDIP := getInetAddr find inetAddr (ascii "logdip")
  logDPort := getInt find (ascii "logdport") 0
  logDReconnectInterval := getInt find (ascii "logdconnectinterval") 60 * 1000
  restrictGMIP := getBool find (ascii "RestrictGMIP") false
  gmIP := getInetAddr find inetAddr (ascii "GMIP")
  useWantedSystem := getBool find (ascii "UseWantedSystem") false
  wantedIP := getInetAddr find inetAddr (ascii "WantedIP")
  wantedPort := getInt find (ascii "WantedPort") 2122
  wantedReconnectInterval := getInt find (ascii "WantedReconnectInterval") 1800 * 1000
  reactivation :=
    loadReactivation ints before (getInt find (ascii "Reactivation") 0)
      (find (ascii "ReactivationStart")) (find (ascii "ReactivationEnd"))
  reactivationValue := getInt find (ascii "ReactivationValue") 1012
  ipAccessLimit := getInt find (ascii "IPAccessLimit") 0
  freeServer := getBool find (ascii "FreeServer") false
  hybridServer := getBool find (ascii "HybridServer") false
  useForbiddenIPList := getBool find (ascii "useForbiddenIPList") false
  supportReconnect := getBool find (ascii "supportReconnect") false
  gameServerSpecifiesId := getBool find (ascii "gameServerSpecifiesId") false
  allowUnknownServers := getBool find (ascii "allowUnknownServers") false
  useQueue := getBool find (ascii "useQueue") true
  sendQueueLevel := getBool find (ascii "sendQueueLevel") true
  payStatOverride := getInt find (ascii "PayStatOverride") (-1)
  enableVerboseLogging := getBool find (ascii "enableVerboseLogging") false
  enableDebugLogging := getBool find (ascii "enableDebugLogging") false
  serverVersion := getInt find (ascii "serverVersion") 0

end Get

/-! ### Settings as they are written -/

/-- The settings of a file, those left out as `none`. -/
structure Written where
  serverPort : Option Int32 := none
  serverExPort : Option Int32 := none
  serverIntPort : Option Int32 := none
  worldPort : Option Int32 := none
  numDBConn : Option Int32 := none
  numServerThread : Option Int32 := none
  numServerIntThread : Option Int32 := none
  gameId : Option Int32 := none
  socketTimeOut : Option Int32 := none
  socketLimit : Option Int32 := none
  acceptCallNum : Option Int32 := none
  waitingUserLimit : Option Int32 := none
  encrypt : Option Bool := none
  logDirectory : Option (List UInt8) := none
  protocolVer : Option Int32 := none
  desApply : Option Bool := none
  readLocalServerList : Option Bool := none
  oneTimeLogOut : Option Bool := none
  gmCheckMode : Option Bool := none
  country : Option Int32 := none
  userData : Option Bool := none
  devIP : Option (List UInt8) := none
  dumpPacket : Option Bool := none
  pcCafeFirst : Option Bool := none
  useIPServer : Option Bool := none
  ipServer : Option (List UInt8) := none
  ipPort : Option Int32 := none
  ipConnectInterval : Option Int32 := none
  useLogD : Option Bool := none
  logDIP : Option (List UInt8) := none
  logDPort : Option Int32 := none
  logDReconnectInterval : Option Int32 := none
  restrictGMIP : Option Bool := none
  gmIP : Option (List UInt8) := none
  useWantedSystem : Option Bool := none
  wantedIP : Option (List UInt8) := none
  wantedPort : Option Int32 := none
  wantedReconnectInterval : Option Int32 := none
  reactivation : Option Int32 := none
  reactivationValue : Option Int32 := none
  reactivationStart : Option (List UInt8) := none
  reactivationEnd : Option (List UInt8) := none
  ipAccessLimit : Option Int32 := none
  freeServer : Option Bool := none
  hybridServer : Option Bool := none
  useForbiddenIPList : Option Bool := none
  supportReconnect : Option Bool := none
  gameServerSpecifiesId : Option Bool := none
  allowUnknownServers : Option Bool := none
  useQueue : Option Bool := none
  sendQueueLevel : Option Bool := none
  payStatOverride : Option Int32 := none
  enableVerboseLogging : Option Bool := none
  enableDebugLogging : Option Bool := none
  serverVersion : Option Int32 := none

/-- The type of a setting and its value, if it has one. -/
inductive Slot where
  | integer (value : Option Int32)
  | boolean (value : Option Bool)
  | string (value : Option (List UInt8))

namespace Written

/-- The settings under the keys that `Load` asks for. -/
def table (written : Written) : List (List UInt8 × Slot) :=
  [(ascii "serverPort", .integer written.serverPort),
    (ascii "serverExPort", .integer written.serverExPort),
    (ascii "serverIntPort", .integer written.serverIntPort),
    (ascii "WorldPort", .integer written.worldPort),
    (ascii "DBConnectionNum", .integer written.numDBConn),
    (ascii "numServerThread", .integer written.numServerThread),
    (ascii "numServerIntThread", .integer written.numServerIntThread),
    (ascii "GameID", .integer written.gameId),
    (ascii "SocketTimeOut", .integer written.socketTimeOut),
    (ascii "SocketLimit", .integer written.socketLimit),
    (ascii "AcceptCallNum", .integer written.acceptCallNum),
    (ascii "WaitingUserLimit", .integer written.waitingUserLimit),
    (ascii "Encrypt", .boolean written.encrypt),
    (ascii "logDirectory", .string written.logDirectory),
    (ascii "ProtocolVersion", .integer written.protocolVer),
    (ascii "DesApply", .boolean written.desApply),
    (ascii "ReadLocalServerList", .boolean written.readLocalServerList),
    (ascii "OneTimeLogOut", .boolean written.oneTimeLogOut),
    (ascii "GMCheckMode", .boolean written.gmCheckMode),
    (ascii "CountryCode", .integer written.country),
    (ascii "UserData", .boolean written.userData),
    (ascii "DevServerIP", .string written.devIP),
    (ascii "DumpPacket", .boolean written.dumpPacket),
    (ascii "PCCafeFirst", .boolean written.pcCafeFirst),
    (ascii "UseIPServer", .boolean written.useIPServer),
    (ascii "IPServer", .string written.ipServer),
    (ascii "IPPort", .integer written.ipPort),
    (ascii "IPInterval", .integer written.ipConnectInterval),
    (ascii "uselogd", .boolean written.useLogD),
    (ascii "logdip", .string written.logDIP),
    (ascii "logdport", .integer written.logDPort),
    (ascii "logdconnectinterval", .integer written.logDReconnectInterval),
    (ascii "RestrictGMIP", .boolean written.restrictGMIP),
    (ascii "GMIP", .string written.gmIP),
    (ascii "UseWantedSystem", .boolean written.useWantedSystem),
    (ascii "WantedIP", .string written.wantedIP),
    (ascii "WantedPort", .integer written.wantedPort),
    (ascii "WantedReconnectInterval", .integer written.wantedReconnectInterval),
    (ascii "Reactivation", .integer written.reactivation),
    (ascii "ReactivationValue", .integer written.reactivationValue),
    (ascii "ReactivationStart", .string written.reactivationStart),
    (ascii "ReactivationEnd", .string written.reactivationEnd),
    (ascii "IPAccessLimit", .integer written.ipAccessLimit),
    (ascii "FreeServer", .boolean written.freeServer),
    (ascii "HybridServer", .boolean written.hybridServer),
    (ascii "useForbiddenIPList", .boolean written.useForbiddenIPList),
    (ascii "supportReconnect", .boolean written.supportReconnect),
    (ascii "gameServerSpecifiesId", .boolean written.gameServerSpecifiesId),
    (ascii "allowUnknownServers", .boolean written.allowUnknownServers),
    (ascii "useQueue", .boolean written.useQueue),
    (ascii "sendQueueLevel", .boolean written.sendQueueLevel),
    (ascii "PayStatOverride", .integer written.payStatOverride),
    (ascii "enableVerboseLogging", .boolean written.enableVerboseLogging),
    (ascii "enableDebugLogging", .boolean written.enableDebugLogging),
    (ascii "serverVersion", .integer written.serverVersion)]

/-- What the settings mean. -/
def settings (written : Written) (inetAddr : List UInt8 → UInt32) (ints : IntStore)
    (before : ReactivationSettings) : Settings where
  serverPort := written.serverPort.getD 0
  serverExPort := written.serverExPort.getD 0
  serverIntPort := written.serverIntPort.getD 0
  worldPort := written.worldPort.getD 0
  numDBConn := written.numDBConn.getD 0
  numServerThread := written.numServerThread.getD 0
  numServerIntThread := written.numServerIntThread.getD 0
  gameId := written.gameId.getD 0
  socketTimeOut := written.socketTimeOut.getD 0 * 1000
  socketLimit := written.socketLimit.getD 0
  acceptCallNum := written.acceptCallNum.getD 0
  waitingUserLimit := written.waitingUserLimit.getD 0
  packetSizeType := 3
  encrypt := written.encrypt.getD false
  logDirectory := written.logDirectory
  protocolVer := written.protocolVer.getD 0
  desApply := written.desApply.getD false
  readLocalServerList := written.readLocalServerList.getD false
  oneTimeLogOut := written.oneTimeLogOut.getD false
  gmCheckMode := written.gmCheckMode.getD false
  country := written.country.getD 0
  userData := written.userData.getD false
  devIP := written.devIP
  dumpPacket := written.dumpPacket.getD true
  pcCafeFirst := written.pcCafeFirst.getD false
  useIPServer := written.useIPServer.getD false
  ipServer := (written.ipServer.map inetAddr).getD 0
  ipPort := written.ipPort.getD 0
  ipConnectInterval := written.ipConnectInterval.getD 0 * 1000
  useLogD := written.useLogD.getD false
  logDIP := (written.logDIP.map inetAddr).getD 0
  logDPort := written.logDPort.getD 0
  logDReconnectInterval := written.logDReconnectInterval.getD 60 * 1000
  restrictGMIP := written.restrictGMIP.getD false
  gmIP := (written.gmIP.map inetAddr).getD 0
  useWantedSystem := written.useWantedSystem.getD false
  wantedIP := (written.wantedIP.map inetAddr).getD 0
  wantedPort := written.wantedPort.getD 2122
  wantedReconnectInterval := written.wantedReconnectInterval.getD 1800 * 1000
  reactivation :=
    loadReactivation ints before (written.reactivation.getD 0) written.reactivationStart
      written.reactivationEnd
  reactivationValue := written.reactivationValue.getD 1012
  ipAccessLimit := written.ipAccessLimit.getD 0
  freeServer := written.freeServer.getD false
  hybridServer := written.hybridServer.getD false
  useForbiddenIPList := written.useForbiddenIPList.getD false
  supportReconnect := written.supportReconnect.getD false
  gameServerSpecifiesId := written.gameServerSpecifiesId.getD false
  allowUnknownServers := written.allowUnknownServers.getD false
  useQueue := written.useQueue.getD true
  sendQueueLevel := written.sendQueueLevel.getD true
  payStatOverride := written.payStatOverride.getD (-1)
  enableVerboseLogging := written.enableVerboseLogging.getD false
  enableDebugLogging := written.enableDebugLogging.getD false
  serverVersion := written.serverVersion.getD 0

end Written

/-- The number that the text begins with, as near as an `int` can be, and zero if there is
none. -/
def SpellsInteger (text : List UInt8) (value : Int32) : Prop :=
  (∃ number, BeginsWith text number ∧ value.toInt = longOf number) ∨
    (∀ number, ¬ BeginsWith text number) ∧ value = 0

/-- The words for true, in any letter case; every other text is false. -/
def SpellsBoolean (text : List UInt8) (value : Bool) : Prop :=
  value = true ↔ ∃ word ∈ ["yes", "true", "1"], lowered text = lowered (ascii word)

def Slot.SpelledBy (text : Option (List UInt8)) : Slot → Prop
  | .integer value => Option.Rel SpellsInteger text value
  | .boolean value => Option.Rel SpellsBoolean text value
  | .string value => text = value

/-- The pairs give exactly the settings that were written.  Of several pairs with one key, in
any letter case, the first counts; pairs with other keys do not matter. -/
def Spells (pairs : List Pair) (written : Written) : Prop :=
  ∀ entry ∈ written.table, entry.2.SpelledBy (valueFor pairs entry.1)

/-! ### Values are read back -/

theorem toInt_ofInt_longOf (number : Int) : (Int32.ofInt (longOf number)).toInt = longOf number := by
  apply Int32.toInt_ofInt_of_le
  · unfold longOf
    omega
  · unfold longOf
    omega

theorem spellsInteger_iff (text : List UInt8) (value : Int32) :
    SpellsInteger text value ↔ atoi text = value := by
  constructor
  · rintro (⟨number, begins, nearest⟩ | ⟨without, rfl⟩)
    · rw [atoi, strtol_beginsWith text number begins, ← nearest]
      exact Int32.ofInt_toInt value
    · rw [atoi, strtol_without text without]
      rfl
  · rintro rfl
    by_cases begins : ∃ number, BeginsWith text number
    · obtain ⟨number, begins⟩ := begins
      refine Or.inl ⟨number, begins, ?_⟩
      rw [atoi, strtol_beginsWith text number begins]
      exact toInt_ofInt_longOf number
    · have without := not_exists.mp begins
      exact Or.inr ⟨without, by rw [atoi, strtol_without text without]; rfl⟩

def isYes (text : List UInt8) : Bool :=
  sameText text (ascii "yes") || sameText text (ascii "true") || sameText text (ascii "1")

theorem spellsBoolean_iff (text : List UInt8) (value : Bool) :
    SpellsBoolean text value ↔ isYes text = value := by
  have words : isYes text = true ↔
      ∃ word ∈ ["yes", "true", "1"], lowered text = lowered (ascii word) := by
    simp [isYes, sameText, or_assoc]
  rw [SpellsBoolean, ← words]
  exact iff_comm.trans Bool.eq_iff_iff.symm

theorem option_rel_iff {α β : Type} (relation : α → β → Prop) (read : α → β)
    (reads : ∀ text value, relation text value ↔ read text = value) (text : Option α)
    (value : Option β) : Option.Rel relation text value ↔ text.map read = value := by
  constructor
  · rintro (⟨spelled⟩ | _)
    · exact congrArg some ((reads _ _).mp spelled)
    · rfl
  · rintro rfl
    cases text with
    | none => exact .none
    | some text => exact .some ((reads _ _).mpr rfl)

def Slot.isSpelled (text : Option (List UInt8)) : Slot → Bool
  | .integer value => text.map atoi = value
  | .boolean value => text.map isYes = value
  | .string value => text = value

theorem Slot.spelledBy_iff (text : Option (List UInt8)) (slot : Slot) :
    slot.SpelledBy text ↔ slot.isSpelled text = true := by
  cases slot with
  | integer value =>
      exact (option_rel_iff _ _ spellsInteger_iff text value).trans decide_eq_true_iff.symm
  | boolean value =>
      exact (option_rel_iff _ _ spellsBoolean_iff text value).trans decide_eq_true_iff.symm
  | string value => exact (decide_eq_true_iff (p := text = value)).symm

/-- Which settings a file has can be computed. -/
theorem spells_iff (pairs : List Pair) (written : Written) :
    Spells pairs written ↔
      (written.table.all fun entry => entry.2.isSpelled (valueFor pairs entry.1)) = true := by
  rw [List.all_eq_true]
  exact forall₂_congr fun entry _ => entry.2.spelledBy_iff _

section Values

variable (find : List UInt8 → Option (List UInt8)) (key : List UInt8)

theorem getInt_spelled (default : Int32) (value : Option Int32)
    (spelled : Option.Rel SpellsInteger (find key) value) :
    getInt find key default = value.getD default := by
  rw [← (option_rel_iff _ _ spellsInteger_iff _ _).mp spelled]
  unfold getInt
  cases find key <;> rfl

theorem getBool_spelled (default : Bool) (value : Option Bool)
    (spelled : Option.Rel SpellsBoolean (find key) value) :
    getBool find key default = value.getD default := by
  rw [← (option_rel_iff _ _ spellsBoolean_iff _ _).mp spelled]
  unfold getBool
  cases find key <;> rfl

theorem getInetAddr_spelled (inetAddr : List UInt8 → UInt32) (value : Option (List UInt8))
    (spelled : find key = value) :
    getInetAddr find inetAddr key = (value.map inetAddr).getD 0 := by
  unfold getInetAddr
  rw [spelled]
  cases value <;> rfl

end Values

/-! ### Settings are found -/

section Spelled

variable {pairs : List Pair} {written : Written} (spells : Spells pairs written)
variable (key : List UInt8)

include spells

theorem Spells.listed (slot : Slot) (listed : written.table.lookup key = some slot) :
    slot.SpelledBy (valueFor pairs key) := by
  obtain ⟨front, behind, split, _⟩ := List.lookup_eq_some_iff.mp listed
  exact spells (key, slot) (split ▸ List.mem_append_right front List.mem_cons_self)

theorem Spells.getInt_eq (default : Int32) (value : Option Int32)
    (listed : written.table.lookup key = some (.integer value)) :
    getInt (valueFor pairs) key default = value.getD default :=
  getInt_spelled _ key default value (spells.listed key _ listed)

theorem Spells.getBool_eq (default : Bool) (value : Option Bool)
    (listed : written.table.lookup key = some (.boolean value)) :
    getBool (valueFor pairs) key default = value.getD default :=
  getBool_spelled _ key default value (spells.listed key _ listed)

theorem Spells.get_eq (value : Option (List UInt8))
    (listed : written.table.lookup key = some (.string value)) : valueFor pairs key = value :=
  spells.listed key _ listed

theorem Spells.loadSettings_eq (inetAddr : List UInt8 → UInt32) (ints : IntStore)
    (before : ReactivationSettings) :
    loadSettings (valueFor pairs) inetAddr ints before =
      written.settings inetAddr ints before := by
  -- The reactivation window comes from three settings.
  have window : loadReactivation ints before (getInt (valueFor pairs) (ascii "Reactivation") 0)
      (valueFor pairs (ascii "ReactivationStart")) (valueFor pairs (ascii "ReactivationEnd")) =
      loadReactivation ints before (written.reactivation.getD 0) written.reactivationStart
        written.reactivationEnd := by
    rw [spells.getInt_eq _ _ written.reactivation rfl,
      spells.get_eq _ written.reactivationStart rfl, spells.get_eq _ written.reactivationEnd rfl]
  simp only [loadSettings, Written.settings, Settings.mk.injEq]
  and_intros
  all_goals first
    | exact spells.getInt_eq _ _ _ rfl
    | exact congrArg (· * 1000) (spells.getInt_eq _ _ _ rfl)
    | exact spells.getBool_eq _ _ _ rfl
    | exact getInetAddr_spelled _ _ _ _ (spells.get_eq _ _ rfl)
    | exact spells.get_eq _ _ rfl
    | exact window
    | trivial

end Spelled

/-- A file of settings and remarks is loaded to what its settings mean, whatever the heap
holds. -/
theorem load_spelled (lines : List SettingsLine) (written : Written) (heap : List UInt8)
    (filled : lines ≠ []) (spells : Spells (SettingsLine.pairs lines) written)
    (inetAddr : List UInt8 → UInt32) (ints : IntStore) (before : ReactivationSettings) :
    ∃ map, loadFile heap (SettingsLine.file lines) OrderedMap.empty = .ok map ∧
      loadSettings (get map) inetAddr ints before = written.settings inetAddr ints before := by
  obtain ⟨map, loaded, answers⟩ := settings_load lines filled heap
  have same : get map = valueFor (SettingsLine.pairs lines) := funext answers
  exact ⟨map, loaded, by rw [same, spells.loadSettings_eq]⟩

/-! Lines of the repository's own configuration file. -/

def KeyText.ofLetters (first : UInt8) (more : List UInt8) (letter : isAlpha first = true)
    (others : more.all isAlpha = true) (fits : (first :: more).length ≤ maxTokenLen) : KeyText :=
  ⟨first, more, letter, fun c member => Or.inl (List.all_eq_true.mp others c member), fits⟩

def Value.ofDigits (text : List UInt8) (filled : text ≠ []) (numeric : text.all isDigit = true)
    (fits : text.length ≤ maxTokenLen) : Value :=
  .integer ⟨[], text, Or.inl rfl, filled, List.all_eq_true.mp numeric, fits⟩

def settingLine (key : KeyText) (value : Value) (gap : Gap) : SettingsLine :=
  ⟨some ⟨noGap, key, oneBlank, oneBlank, value, noGap⟩, gap, none⟩

def remarkLine (body : List UInt8) (tokens : body.all beginsToken = true)
    (short : body.length ≤ maxTokenLen) : SettingsLine :=
  ⟨none, noGap, some (.ofTokens body tokens short)⟩

def excerpt : List SettingsLine :=
  [remarkLine (ascii "worldport = 8111") rfl (by decide),
    settingLine (.ofLetters 119 (ascii "orldport") rfl rfl (by decide))
      (.ofDigits (ascii "7000") (by decide) rfl (by decide)) oneBlank,
    ⟨none, noGap, none⟩,
    remarkLine (ascii " Socket timeout (sec) (default: 180)") rfl (by decide),
    settingLine (.ofLetters 83 (ascii "ocketTimeOut") rfl rfl (by decide))
      (.ofDigits (ascii "180") (by decide) rfl (by decide)) noGap,
    settingLine (.ofLetters 85 (ascii "seLogD") rfl rfl (by decide))
      (.word (.ofLetters 102 (ascii "alse") rfl rfl (by decide))) noGap,
    settingLine (.ofLetters 108 (ascii "ogdip") rfl rfl (by decide))
      (.quoted ⟨ascii "10.10.13.10", by decide, by decide, by decide, by decide⟩) noGap,
    settingLine (.ofLetters 85 (ascii "seWantedSystem") rfl rfl (by decide))
      (.word (.ofLetters 116 (ascii "rue") rfl rfl (by decide))) noGap]

def excerptSettings : Written where
  worldPort := some 7000
  socketTimeOut := some 180
  useLogD := some false
  logDIP := some (ascii "10.10.13.10")
  useWantedSystem := some true

theorem load_spelled_excerpt :
    ∃ map, loadFile [] (fileOf ([";worldport = 8111", "worldport = 7000 ", "",
        "; Socket timeout (sec) (default: 180)", "SocketTimeOut = 180", "UseLogD = false",
        "logdip = \"10.10.13.10\"", "UseWantedSystem = true"].map ascii))
        OrderedMap.empty = .ok map ∧
      loadSettings (get map)
          (fun text => if text = ascii "10.10.13.10" then (InAddr.mk 10 10 13 10).sAddr
            else 0xffffffff) IntStore.wrapping ⟨0, ⟨0, 0, 0, 0, 0⟩, ⟨0, 0, 0, 0, 0⟩⟩ =
        excerptSettings.settings
          (fun text => if text = ascii "10.10.13.10" then (InAddr.mk 10 10 13 10).sAddr
            else 0xffffffff) IntStore.wrapping ⟨0, ⟨0, 0, 0, 0, 0⟩, ⟨0, 0, 0, 0, 0⟩⟩ :=
  load_spelled excerpt excerptSettings [] (List.cons_ne_nil _ _)
    ((spells_iff _ _).mpr (by decide +kernel)) _ IntStore.wrapping _

end Config

end AuthServer
