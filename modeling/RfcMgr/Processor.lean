import RfcMgr.Hostif
import RfcMgr.Json
import RfcMgr.Exec
import Std.Data.TreeMap.Lemmas

/-! The fields of `RuntimeFeatureControlProcessor`, the state of a run and its trace (STB build). -/

namespace RfcMgr

def xconfSelectorKeyStr : Str := "Device.DeviceInfo.X_RDKCENTRAL-COM_RFC.Control.XconfSelector".toList
def xconfUrlKeyStr : Str := "Device.DeviceInfo.X_RDKCENTRAL-COM_RFC.Control.XconfUrl".toList
def bootstrapXconfUrlKeyStr : Str := "Device.DeviceInfo.X_RDKCENTRAL-COM_RFC.Bootstrap.XconfUrl".toList
def rfcAccountIdKeyStr : Str :=
  "Device.DeviceInfo.X_RDKCENTRAL-COM_RFC.Feature.AccountInfo.AccountID".toList
def rfcPartnerIdKeyStr : Str := "Device.DeviceInfo.X_RDKCENTRAL-COM_Syndication.PartnerId".toList
def rfcConfigSetHash : Str := "Device.DeviceInfo.X_RDKCENTRAL-COM_RFC.Control.ConfigSetHash".toList
def rfcConfigSetTime : Str := "Device.DeviceInfo.X_RDKCENTRAL-COM_RFC.Control.ConfigSetTime".toList

def unknownStr : Str := "Unknown".toList

/-- `SUCCESS`, `FAILURE` and `NO_RFC_UPDATE_REQUIRED`. -/
inductive ReturnCode where
  | success
  | failure
  | noRfcUpdateRequired
  deriving DecidableEq

inductive RfcState where
  | invalid
  | init
  | «local»
  | redo
  | redoWithValidData
  | finish
  deriving DecidableEq

/-- `std::map<std::string, std::string>`. -/
abbrev ConfigMap := Std.TreeMap Str Str

structure Processor where
  accountId : Str
  experience : Str
  osclass : Str
  xconfServerUrl : Str
  rfcSelectOpt : Str
  bkupHash : Str
  rfcKeyAndValueMap : ConfigMap
  rfcState : RfcState
  lastFirmware : Str
  bootStrapXconfUrl : Str
  validAccountId : Str
  validPartnerId : Str
  stashAccountId : Str
  isRebootRequired : Bool
  isFirstRequest : Bool
  urlValidationInProgress : Bool
  rfcSelectorSlot : Str
  -- inherited from `XconfHandler`
  estbMacAddress : Str
  firmwareVersion : Str
  buildTypeStr : Str
  modelNumber : Str
  manufacturer : Str
  partnerId : Str

/-- What is decided for one parameter of a response. -/
structure ParamDecision where
  /-- The value a set of the parameter is attempted with. -/
  written : Option Str
  /-- It is logged as updated. -/
  updated : Bool
  /-- It raises `isRebootRequired`. -/
  reboot : Bool
  deriving DecidableEq

/-- The trace of a run: what the source logs and sends, in order. -/
inductive Event where
  | request (server url hashValue valueTime : Str)
  | response (curlRetCode httpCode : Int)
  | validationRequest (url : Str)
  /-- `PreProcessJsonResponse` has returned. -/
  | preProcessed (body : Body) (before after : Processor)
  /-- `ProcessJsonResponse` is called. -/
  | apply (body : Body)
  /-- The processor and the device as the apply step starts to fill the parameter map. -/
  | fill (proc : Processor) (dev : Device)
  /-- One parameter of the response has been dealt with. -/
  | param (key value : Str) (decision : ParamDecision)
  /-- `ProcessJsonResponse` returns `SUCCESS`. -/
  | applied (body : Body) (dev : Device)
  /-- `StoreXconfEndpointMetadata` has run. -/
  | stored (selector url : Str)

structure St where
  proc : Processor
  dev : Device
  events : List Event

/-- One HTTP exchange, as far as `DownloadRuntimeFeatutres` looks at it. -/
structure Exchange where
  hashParamAllocated : Bool
  curlRetCode : Int
  httpCode : Int

/-- One pass of the request loop: the allocations, the exchange and what it brings. -/
structure Attempt extends Exchange where
  filePresent : Bool
  dwnLocAllocated : Bool
  headerDwnLocAllocated : Bool
  body : Body
  header : Str

/-- What a run meets outside the process. -/
structure Env where
  hostif : Hostif
  directBlocked : Bool
  isDebugServicesUnlocked : Bool
  checkWhoamiSupport : Bool
  /-- The lines of `/etc/device.properties`, when it opens. -/
  deviceProperties : Option (List Str)
  /-- `urlEncodeString`, which may fail. -/
  urlEncodeString : Str → Option Str
  /-- `std::time` as text in `clearDB` and in `updateHashAndTimeInDB`. -/
  configChangeTime : Str
  configSetTime : Str
  /-- The buffers and the exchanges of `ProcessXconfUrl`. -/
  validationDwnLocAllocated : Bool
  validationHeaderAllocated : Bool
  validation : Nat → Exchange

/-- A file that does not open counts as enabled: `return FAILURE` in a function of type `bool`. -/
def isMaintenanceEnabled (env : Env) : Bool :=
  match env.deviceProperties with
  | none => true
  | some lines => decide ("ENABLE_MAINTENANCE=true".toList ∈ lines)

namespace St

def log (st : St) (e : Event) : St := { st with events := st.events ++ [e] }

def read (env : Env) (st : St) (key : Str) (datasize : Nat) : Option Str × St :=
  let (value, dev) := st.dev.readRFCProperty env.hostif key datasize
  (value, { st with dev := dev })

def set (env : Env) (st : St) (key value : Str) : WdmpStatus × St :=
  let (status, dev) := st.dev.setRFCProperty env.hostif key value
  (status, { st with dev := dev })

section Frame

variable (env : Env) (st : St) (e : Event) (key value : Str) (datasize : Nat)

@[simp] theorem log_proc : (st.log e).proc = st.proc := rfl
@[simp] theorem log_dev : (st.log e).dev = st.dev := rfl
@[simp] theorem log_events : (st.log e).events = st.events ++ [e] := rfl
@[simp] theorem read_proc : (st.read env key datasize).2.proc = st.proc := rfl
@[simp] theorem read_events : (st.read env key datasize).2.events = st.events := rfl
@[simp] theorem read_files : (st.read env key datasize).2.dev.files = st.dev.files :=
  Device.readRFCProperty_files ..
@[simp] theorem read_rfcStore : (st.read env key datasize).2.dev.rfcStore = st.dev.rfcStore :=
  Device.readRFCProperty_rfcStore ..
@[simp] theorem set_proc : (st.set env key value).2.proc = st.proc := rfl
@[simp] theorem set_events : (st.set env key value).2.events = st.events := rfl
@[simp] theorem set_files : (st.set env key value).2.dev.files = st.dev.files :=
  Device.setRFCProperty_files ..

end Frame

end St

/-! ### A plain device -/

/-- Every get and every set succeeds. -/
def Hostif.willing : Hostif where
  getReply _ _ := ⟨.success, true, some .string⟩
  setReply _ _ _ _ := .success
  dflt _ := []

def Device.blank : Device where
  files _ := none
  rfcStore _ := none
  gets _ := 0
  sets _ := 0

def Env.plain : Env where
  hostif := .willing
  directBlocked := false
  isDebugServicesUnlocked := false
  checkWhoamiSupport := false
  deviceProperties := some []
  urlEncodeString := some
  configChangeTime := "1700000000".toList
  configSetTime := "1700000001".toList
  validationDwnLocAllocated := true
  validationHeaderAllocated := true
  validation _ := ⟨true, 0, 200⟩

/-- A processor that is about to make its first request. -/
def Processor.fresh : Processor where
  accountId := unknownStr
  experience := "X1".toList
  osclass := []
  xconfServerUrl := "https://xconf/featureControl/getSettings".toList
  rfcSelectOpt := []
  bkupHash := []
  rfcKeyAndValueMap := ∅
  rfcState := .init
  lastFirmware := "V1".toList
  bootStrapXconfUrl := []
  validAccountId := []
  validPartnerId := []
  stashAccountId := []
  isRebootRequired := false
  isFirstRequest := true
  urlValidationInProgress := false
  rfcSelectorSlot := []
  estbMacAddress := "AA:BB:CC:DD:EE:FF".toList
  firmwareVersion := "V1".toList
  buildTypeStr := "prod".toList
  modelNumber := "M1".toList
  manufacturer := "RDK".toList
  partnerId := "comcast".toList

def St.fresh : St := ⟨.fresh, .blank, []⟩

/-- A download that gets through with this code and body. -/
def Attempt.answered (httpCode : Int) (body : Body) : Attempt where
  hashParamAllocated := true
  curlRetCode := 0
  httpCode := httpCode
  filePresent := false
  dwnLocAllocated := true
  headerDwnLocAllocated := true
  body := body
  header := []

end RfcMgr
