import RfcMgr.Initialise
import RfcMgr.ResponseB
import RfcMgr.HashHeader

/-! A start of the manager on a gateway (RDKB build), from `InitializeRuntimeFeatureControlProcessor` to
the end of `ProcessRuntimeFeatureControlReq`. The parameters are behind rbus, and the hash and the time of
a request come from two files under `/tmp/RFC`, which a reboot erases.

Of the files that a run writes, those are kept that the next one reads. -/

namespace RfcMgr.Gateway

/-! ### A run -/

/-- The files that one run leaves to the next; `none` is one that is not there. -/
structure Files where
  /-- `/tmp/RFC/.hashValue` and `/tmp/RFC/.timeValue`. -/
  hashValue : Option Str
  timeValue : Option Str
  version : Option Str

/-- What a run stores of a response that it has processed. -/
structure Outcome where
  body : Body
  header : Str
  rc : ReturnCode
  /-- The time of the update. -/
  now : Str
  hashOpens : Bool
  timeOpens : Bool

/-- The trace of a run: what it sends and what it stores, in order. -/
inductive Event where
  | request (url hashValue valueTime : Str)
  | response (curlRetCode httpCode : Int)
  | processed (outcome : Outcome)

structure St where
  proc : Processor
  /-- `_partnerId`, which is not the `_partner_id` of a request. -/
  partnerName : Str
  ecmMacAddress : Str
  files : Files
  /-- The calls to rbus so far, in order. -/
  calls : List Rdkb.RbusCall
  rebootScheduled : Bool
  events : List Event

/-- What a run meets outside the process. The hostif and the validation of the STB build are not looked
at. -/
structure Env extends RfcMgr.Env where
  bus : Rdkb.Env
  opens : Str → Bool

structure Platform extends RfcMgr.Platform where
  ecmMac : Str
  /-- The first line of what `dmcli` prints of the URL, when the pipe opens and there is one. -/
  syndicationUrl : Option Str

namespace St

def onProc (st : St) (f : Processor → Processor) : St := { st with proc := f st.proc }

def log (st : St) (e : Event) : St := { st with events := st.events ++ [e] }

/-- The part of the state that the calls of rbus and the apply step look at. -/
def bus (st : St) : Rdkb.St :=
  ⟨⟨st.proc.rfcKeyAndValueMap, st.proc.rfcState, st.proc.lastFirmware, st.proc.firmwareVersion⟩,
    st.calls, st.rebootScheduled⟩

/-- What they change of it. -/
def join (st : St) (b : Rdkb.St) : St :=
  { st with
    proc := { st.proc with rfcKeyAndValueMap := b.proc.rfcKeyAndValueMap }
    calls := b.calls
    rebootScheduled := b.rebootScheduled }

def onBus {α : Type} (st : St) (f : Rdkb.St → Exec Rdkb.St α) : Exec St α :=
  match f st.bus with
  | .ok a b => .ok a (st.join b)
  | .crash b => .crash (st.join b)

/-- A read makes calls and nothing else. -/
def read (env : Env) (st : St) (key : Str) (datasize : Nat) : Option Str × St :=
  let (value, b) := Rdkb.readRFCProperty env.bus key datasize st.bus
  (value, { st with calls := b.calls })

def set (env : Env) (st : St) (key value : Str) : Exec St WdmpStatus :=
  st.onBus (Rdkb.setRFCProperty env.bus key value)

def onHashFiles (st : St) (f : Rdkb.HashFiles → Rdkb.HashFiles) : St :=
  let h := f ⟨st.proc.bkupHash, st.proc.isRebootRequired, st.files.hashValue, st.files.timeValue⟩
  { st with
    proc := { st.proc with isRebootRequired := h.isRebootRequired }
    files := { st.files with hashValue := h.hashValue, timeValue := h.timeValue } }

end St

/-! ### The start -/

def isDebugServicesEnabled (env : Env) (st : St) : Bool × St :=
  let (value, st) := st.read env rfcDebugsrv 512
  (value == some trueStr, st)

def getDeviceTypeRFC (env : Env) (st : St) : Str × St :=
  match st.read env rfcDevicetype 512 with
  | (none, st) => ("unknown".toList, st)
  | (some value, st) =>
      (if stringCaseCompare (value.take 4) "prod".toList then "prod".toList
        else if stringCaseCompare (value.take 4) "test".toList then "test".toList
        else "unknown".toList, st)

def isSecureDbgSrvUnlocked (pl : Platform) (env : Env) (st : St) : Bool × St :=
  match pl.ebuildType with
  | .unknown => (false, st)
  | .prod =>
      let (dbgServices, st) := isDebugServicesEnabled env st
      let (deviceType, st) := getDeviceTypeRFC env st
      match pl.labsignedEnabled with
      | none => (false, st)
      | some value =>
          (stringCaseCompare value trueStr && deviceType == "test".toList && dbgServices, st)
  | .dev | .vbn | .qa => (true, st)

def getBootstrapXconfUrl (env : Env) : Nat → St → St
  | 0, st => st
  | retries + 1, st =>
      match st.read env Rdkb.bootstrapXconfUrlKeyStr 1024 with
      | (none, st) => getBootstrapXconfUrl env retries st
      | (some url, st) => st.onProc fun p => { p with bootStrapXconfUrl := url }

/-- The manufacturer is not asked for. -/
def initializeXconfHandler (pl : Platform) (st : St) : St :=
  { st with
    proc := { RfcMgr.initializeXconfHandler pl.toPlatform st.proc with
      manufacturer := st.proc.manufacturer }
    ecmMacAddress := pl.ecmMac }

def getRFCPartnerID (pl : Platform) (env : Env) (st : St) : St :=
  if checkWhoamiSupport pl.toPlatform then
    match st.read env rfcPartnerNameKeyStr 1024 with
    | (none, st) => st
    | (some value, st) => { st with partnerName := value }
  else { st with partnerName := st.proc.partnerId }

def chooseRfcFile (pl : Platform) (env : Env) (st : St) : Option Str × St :=
  let (isLocal, st) :=
    if pl.rfcPropertiesPersistence.isSome then isSecureDbgSrvUnlocked pl env st else (false, st)
  (if isLocal then pl.rfcPropertiesPersistence else pl.rfcProperties,
    st.onProc fun p => { p with rfcState := if isLocal then .local else .init })

def serverUrlEuEntry : Str := "RFC_CONFIG_SERVER_URL_EU=".toList

/-- The last line of the file that names an entry. The two entries are no prefixes of each other. -/
def lastEntry (entry text : Str) : Str :=
  (((fileLines text).reverse.find? fun line => entry.isPrefixOf line).map fun line =>
    line.drop entry.length).getD []

/-- `fgets` into 256 bytes, and the line end cut off; a line that is nothing else stays. -/
def trimmedUrl (line : Str) : Str :=
  let text := KeyValueLines.cStr (line.take 255)
  let trimmed := text.rdropWhile fun c => c == '\r' || c == '\n'
  if trimmed = [] then text else trimmed

/-- The URL of the properties, the one for Europe when it is that partner. -/
def propertiesUrl (text partnerName : Str) : Str :=
  let eu := lastEntry serverUrlEuEntry text
  if partnerName = "sky-uk".toList ∧ eu ≠ [] then eu else lastEntry serverUrlEntry text

def getServURL (pl : Platform) (file : Option Str) (st : St) : ReturnCode × St :=
  match file with
  | none => (.failure, st)
  | some text =>
      let tmpURL := if st.proc.rfcState = .local then [] else trimmedUrl (pl.syndicationUrl.getD [])
      let url := if tmpURL = [] then propertiesUrl text st.partnerName else tmpURL ++ getSettings
      (if url = [] then .failure else .success, st.onProc fun p => { p with xconfServerUrl := url })

/-- Without an answer there is no experience. -/
def getExperience (pl : Platform) (p : Processor) : Processor := { p with experience := pl.experience }

/-- What `std::getline` reads of a file that is there. -/
def firstLineOf (text : Str) : Str := (fileLines text).head?.getD []

def getLastProcessedFirmware (st : St) : St :=
  match st.files.version with
  | none => st
  | some text => st.onProc fun p => { p with lastFirmware := firstLineOf text }

/-- Without the time of an update, and on another firmware than that of the last one, the account counts
as unknown. A read that fails leaves it empty. -/
def getAccountID (env : Env) (st : St) : St :=
  match st.read env rfcAccountIdKeyStr 1024 with
  | (none, st) => st
  | (some value, st) => st.onProc fun p => { p with accountId :=
      if st.files.timeValue = none ∨ value = [] ∨ p.lastFirmware ≠ p.firmwareVersion then unknownStr
      else value }

def getOsClass (pl : Platform) (env : Env) (st : St) : St :=
  if checkWhoamiSupport pl.toPlatform then
    match st.read env rfcOsclassKeyStr 100 with
    | (none, st) => st
    | (some value, st) => st.onProc fun p => { p with osclass := value }
  else st

def lookUpIdentity (pl : Platform) (env : Env) (st : St) : St :=
  (getOsClass pl env (getAccountID env (getLastProcessedFirmware
    (st.onProc (getExperience pl))))).onProc fun p =>
      { p with isFirstRequest := st.files.timeValue.isNone }

def initializeRuntimeFeatureControlProcessor (pl : Platform) (env : Env) (st : St) : ReturnCode × St :=
  let st := getBootstrapXconfUrl env bootstrapRetries st
  let st := getRFCPartnerID pl env (initializeXconfHandler pl st)
  let (rfcFile, st) := chooseRfcFile pl env st
  match getServURL pl rfcFile st with
  | (.success, st) => (.success, lookUpIdentity pl env st)
  | (_, st) => (.failure, st)

/-! ### A request -/

def createXconfHTTPUrl (env : Env) (st : St) : Str :=
  let p := st.proc
  p.xconfServerUrl ++ "?".toList ++
    encodeString env.toEnv "estbMacAddress=".toList p.estbMacAddress "&".toList ++
    encodeString env.toEnv "firmwareVersion=".toList p.firmwareVersion "&".toList ++
    encodeString env.toEnv "env=".toList p.buildTypeStr "&".toList ++
    encodeString env.toEnv "model=".toList p.modelNumber "&".toList ++
    encodeString env.toEnv "ecmMacAddress=".toList st.ecmMacAddress "&".toList ++
    "controllerId=2504&".toList ++ "channelMapId=2345&".toList ++ "VodId=15660&".toList ++
    encodeString env.toEnv "partnerId=".toList p.partnerId "&".toList ++
    encodeString env.toEnv "accountId=".toList p.accountId "&".toList ++
    encodeString env.toEnv "experience=".toList p.experience "&".toList ++
    "version=2".toList

def isXconfSelectorSlotProd (env : Env) (st : St) : Bool × St :=
  let (value, st) := st.read env xconfSelectorKeyStr 1024
  (value == some "prod".toList, st)

/-- The first lines of the two files, and the hash is kept as `bkup_hash`. -/
def retrieveHashAndTimeFromPreviousDataSet (st : St) : (Str × Str) × St :=
  let valueHash := (st.files.hashValue.map firstLineOf).getD "UPGRADE_HASH".toList
  let valueTime := (st.files.timeValue.map firstLineOf).getD "0".toList
  ((valueHash, valueTime), st.onProc fun p => { p with bkupHash := valueHash })

def storedHashAndTime (env : Env) (st : St) : (Str × Str) × St :=
  if st.proc.lastFirmware = st.proc.firmwareVersion then
    if st.proc.rfcState = .init then
      let (isProd, st) := isXconfSelectorSlotProd env st
      if isProd then retrieveHashAndTimeFromPreviousDataSet st
      else (("OVERRIDE_HASH".toList, "0".toList), st)
    else retrieveHashAndTimeFromPreviousDataSet st
  else (("UPGRADE_HASH".toList, "0".toList), st)

def getStoredHashAndTime (env : Env) (st : St) : (Str × Str) × St :=
  let ((valueHash, valueTime), st) := storedHashAndTime env st
  if st.proc.partnerId = unknownStr ∨ st.proc.accountId = unknownStr then
    (("OVERRIDE_HASH".toList, valueTime), st)
  else ((valueHash, valueTime), st)

/-- What the reply of a request leads to. -/
def replyCode (x : Exchange) : ReturnCode :=
  if x.curlRetCode = 0 ∧ x.httpCode = 404 then .failure
  else if x.httpCode = 304 then .noRfcUpdateRequired
  else if x.curlRetCode ≠ 0 ∨ x.httpCode ≠ 200 then .failure
  else .success

def exchanged (env : Env) (x : Exchange) (url : Str) (st : St) : St :=
  let ((hashValue, valueTime), st) := getStoredHashAndTime env st
  (st.log (.request (url.take 1023) hashValue valueTime)).log (.response x.curlRetCode x.httpCode)

def downloadRuntimeFeatutres (env : Env) (x : Exchange) (url : Str) (st : St) : ReturnCode × St :=
  if x.hashParamAllocated then (replyCode x, exchanged env x url st) else (.failure, st)

/-! ### The loop -/

def updateHashInDB (env : Env) (configSetHash : Str) (st : St) : St :=
  st.onHashFiles (Rdkb.updateHashInDB env.opens configSetHash)

def updateTimeInDB (env : Env) (timestampString : Str) (st : St) : St :=
  st.onHashFiles (Rdkb.updateTimeInDB env.opens timestampString)

def updateHashAndTimeInDB (env : Env) (header : Str) (st : St) : St :=
  st.onHashFiles (Rdkb.updateHashAndTimeInDB env.opens env.configSetTime header)

/-- The end of `ProcessJsonResponseB`: it has returned, and with `SUCCESS` only behind this. -/
def writeVersion (env : Env) (rc : ReturnCode) (st : St) : St :=
  if rc = .success ∧ env.opens "/opt/secure/RFC/.version".toList then
    { st with files := { st.files with version := some (st.proc.firmwareVersion ++ "\n".toList) } }
  else st

def processJsonResponseB (env : Env) (body : Body) (st : St) : Exec St ReturnCode :=
  (st.onBus (Rdkb.processJsonResponseB env.bus body)).bind fun rc st => .ok rc (writeVersion env rc st)

def storeXconfEndpointMetadata (env : Env) (st : St) : Exec St Unit :=
  (st.set env xconfSelectorKeyStr st.proc.rfcSelectOpt).bind fun _ st =>
  (st.set env xconfUrlKeyStr st.proc.xconfServerUrl).bind fun _ st => .ok () st

def outcomeOf (env : Env) (a : Attempt) (rc : ReturnCode) : Outcome where
  body := a.body
  header := a.header
  rc := rc
  now := env.configSetTime
  hashOpens := env.opens "/tmp/RFC/.hashValue".toList
  timeOpens := env.opens "/tmp/RFC/.timeValue".toList

/-- The two files once `ProcessJsonResponseB` has returned. -/
def storeOutcome (env : Env) (a : Attempt) (rc : ReturnCode) (st : St) : St :=
  (match rc with
    | .success => updateHashAndTimeInDB env a.header st
    | _ => updateTimeInDB env "0".toList (updateHashInDB env "CLEARED".toList st)).log
      (.processed (outcomeOf env a rc))

def applyResponse (env : Env) (a : Attempt) (st : St) : Exec St (Option ReturnCode) :=
  (processJsonResponseB env a.body st).bind fun rc st =>
  (storeXconfEndpointMetadata env (storeOutcome env a rc st)).bind fun _ st =>
    .ok (some (if rc = .success then .success else .failure)) st

def handleResponse (env : Env) (a : Attempt) (st : St) : Exec St (Option ReturnCode) :=
  match preProcessJsonResponse env.toEnv a.body st.proc with
  | none => .crash st
  | some p =>
      let st := st.onProc fun _ => p
      if p.rfcState = .redo then .ok none st
      else if p.rfcState = .redoWithValidData then
        .ok none (st.onProc fun p => { p with rfcState := .init })
      else applyResponse env a st

def requestPass (env : Env) (attempts : Nat → Attempt) (retries : Nat) (st : St) :
    Exec St (Option ReturnCode) :=
  let a := attempts retries
  let st := st.onProc (resolveServerUrl env.toEnv a.filePresent)
  let url := createXconfHTTPUrl env st
  if a.dwnLocAllocated = false ∨ a.headerDwnLocAllocated = false then .ok (some .failure) st
  else
    match downloadRuntimeFeatutres env a.toExchange url st with
    | (.success, st) => handleResponse env a st
    | (.noRfcUpdateRequired, st) => .ok (some .success) st
    | (.failure, st) => .ok none st

/-- No direct connection is blocked. -/
def processRuntimeFeatureControlReq (env : Env) (attempts : Nat → Attempt) (st : St) :
    Exec St ReturnCode :=
  Exec.retry (requestPass env attempts) .failure retryCount 0 (st.onProc chooseSelectOpt)

/-! ### A start of the manager -/

structure Boot where
  platform : Platform
  env : Env
  attempts : Nat → Attempt

def St.constructed (files : Files) : St := ⟨.constructed, [], [], files, [], false, []⟩

namespace Boot

variable (b : Boot) (files : Files)

/-- The environment of the requests, once the debug services have been looked at. -/
def requestEnv (st : St) : Env :=
  { b.env with
    isDebugServicesUnlocked := (isSecureDbgSrvUnlocked b.platform b.env st).1
    checkWhoamiSupport := checkWhoamiSupport b.platform.toPlatform }

def request (st : St) : Exec St ReturnCode :=
  processRuntimeFeatureControlReq (b.requestEnv st) b.attempts
    (isSecureDbgSrvUnlocked b.platform b.env st).2

def run : Exec St ReturnCode :=
  match initializeRuntimeFeatureControlProcessor b.platform b.env (.constructed files) with
  | (.success, st) => b.request st
  | (rc, st) => .ok rc st

end Boot

end RfcMgr.Gateway
