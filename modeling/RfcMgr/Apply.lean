import RfcMgr.ConfigData
import RfcMgr.Download

/-! `ProcessJsonResponse`: the feature files, and `processXconfResponseConfigDataPart`, which clears
the RFC store and writes the parameters of the response into it, key by key. -/

namespace RfcMgr

/-! ### The feature files -/

def exportLines (obj : RuntimeFeatureControlObject) : Str :=
  let enbStr := if obj.enable then "true".toList else "false".toList
  let effectStr := if obj.effectiveImmediate then "true".toList else "false".toList
  "export RFC_ENABLE_".toList ++ obj.name ++ "=".toList ++ enbStr ++ "\n".toList ++
    ("export RFC_".toList ++ obj.name ++ "_effectiveImmediate=".toList ++ effectStr ++ "\n".toList)

def writeRemoteFeatureCntrlFile (filename : Str) (obj : RuntimeFeatureControlObject)
    (dev : Device) : Device :=
  dev.append filename (exportLines obj)

/-- One pass of the loop over the features; `rfcList` is what goes into the feature list. -/
def writeFeature (rfcList : Str) (dev : Device) (feature : Json) : Str × Device :=
  match readFeature feature with
  | none => (rfcList, dev)
  | some obj =>
      match obj.featureInstance with
      | none => (rfcList, writeRemoteFeatureCntrlFile varFile obj dev)
      | some featureInstance =>
          (rfcList ++ featureInstance ++ "=true,".toList,
            writeRemoteFeatureCntrlFile varFile obj
              (writeRemoteFeatureCntrlFile (featureFile obj.name) obj dev))

def writeFeatures : List Json → Str → Device → Str × Device
  | [], rfcList, dev => (rfcList, dev)
  | feature :: features, rfcList, dev =>
      let (rfcList, dev) := writeFeature rfcList dev feature
      writeFeatures features rfcList dev

/-- `WriteFile`. -/
def writeFile (filename data : Str) (dev : Device) : Device := dev.overwrite filename (data ++ "\n".toList)

/-! ### Clearing the store -/

def bootstrapClearDBKey : Str := "Device.DeviceInfo.X_RDKCENTRAL-COM_RFC.Bootstrap.Control.ClearDB".toList
def configChangeTimeKey : Str := "Device.DeviceInfo.X_RDKCENTRAL-COM_RFC.Control.ConfigChangeTime".toList
def clearDBEndKey : Str := "Device.DeviceInfo.X_RDKCENTRAL-COM_RFC.Control.ClearDBEnd".toList
def bootstrapClearDBEndKey : Str :=
  "Device.DeviceInfo.X_RDKCENTRAL-COM_RFC.Bootstrap.Control.ClearDBEnd".toList
def reloadCacheKey : Str := "RFC_CONTROL_RELOADCACHE".toList

def clearValue : Str := "true".toList

/-- A failed read leaves the account as it is: the `Unknown` it prints goes into a local buffer. -/
def getAccountID (env : Env) (st : St) : St :=
  match st.read env rfcAccountIdKeyStr 1024 with
  | (none, st) => st
  | (some tempbuf, st) => st.onProc fun p =>
      { p with accountId :=
        if tempbuf = [] ∨ p.lastFirmware ≠ p.firmwareVersion then unknownStr else tempbuf }

def rfcStashStoreParams (env : Env) (st : St) : St :=
  (getAccountID env st).onProc fun p => { p with stashAccountId := p.accountId }

def rfcStashRetrieveParams (env : Env) (st : St) : St :=
  if st.proc.stashAccountId ≠ [] ∧ st.proc.stashAccountId ≠ unknownStr then
    match st.set env rfcAccountIdKeyStr st.proc.stashAccountId with
    | (.success, st) => st.onProc fun p => { p with accountId := p.stashAccountId }
    | (_, st) => st
  else st

def clearDB (env : Env) (st : St) : St :=
  let st := rfcStashStoreParams env st
  let st := st.onDev fun dev => dev.overwrite tr181StoreFile []
  let st := (st.set env clearDBKey clearValue).2
  let st := (st.set env bootstrapClearDBKey clearValue).2
  let st := (st.set env configChangeTimeKey env.configChangeTime).2
  rfcStashRetrieveParams env st

def clearDBEnd (env : Env) (st : St) : St :=
  let st := (st.set env clearDBEndKey clearValue).2
  let st := (st.set env bootstrapClearDBEndKey clearValue).2
  (st.set env reloadCacheKey clearValue).2

/-! ### Writing the parameters -/

/-- What `std::getline` reads from a file. -/
def fileLines (text : Str) : List Str :=
  let pieces := text.splitOn '\n'
  if pieces.getLast? = some [] then pieces.dropLast else pieces

/-- A line of `bootstrap.ini` contains the target; a file that does not open has no lines. -/
def checkBootstrap (dev : Device) (target : Str) : Bool :=
  match dev.files bsStoreFilename with
  | none => false
  | some text => (fileLines text).any fun line => contains line target

/-- What `isConfigValueChange` returns and leaves in `value` and `currentValue`. -/
structure ChangeCheck where
  changed : Bool
  value : Str
  currentValue : Str

/-- The account is a parameter of the RFC namespace. -/
theorem contains_rfcAccountIdKeyStr :
    contains rfcAccountIdKeyStr ".X_RDKCENTRAL-COM_RFC.".toList = true :=
  contains_toList "Device.DeviceInfo" "Feature.AccountInfo.AccountID" (by simp)

/-- The check once the current value is read. -/
def checkAgainst (is_Bootstrap : Bool) (key value currentValue : Str) : ChangeCheck :=
  if !is_Bootstrap && !contains key ".X_RDKCENTRAL-COM_RFC.".toList then
    ⟨decide (value ≠ currentValue), value, currentValue⟩
  else if contains key rfcAccountIdKeyStr && stringCaseCompare value unknownStr then
    ⟨false, currentValue, currentValue⟩
  else ⟨true, value, currentValue⟩

/-- A failed read leaves `currentValue` as the caller passed it. -/
def isConfigValueChange (env : Env) (key value currentValue : Str) (st : St) : ChangeCheck × St :=
  match st.read env key 4096 with
  | (none, st) => (⟨true, value, currentValue⟩, st)
  | (some current, st) => (checkAgainst (checkBootstrap st.dev key) key value current, st)

/-- The variables of the loop over the map that outlive a pass. -/
structure ApplyVars where
  currentValue : Str
  paramList : List Str
  deriving DecidableEq

def paramLine (key value : Str) : Str := "TR181: ".toList ++ key ++ " ".toList ++ value

/-- The end of a pass that does not `continue`: the parameter goes into the list. -/
def listParam (key value currentValue : Str) (vars : ApplyVars) : ApplyVars :=
  ⟨currentValue, vars.paramList ++ [paramLine key value]⟩

def skipped : ParamDecision := ⟨none, false, false⟩

/-- `set_RFCProperty` and what follows from its status. -/
def setParam (env : Env) (key newValue currentValue : Str) (st : St) : ParamDecision × St :=
  let (status, st) := st.set env key newValue
  let updated := decide (status = .success ∧ newValue ≠ currentValue)
  let reboot := updated && isMaintenanceEnabled env
  (⟨some newValue, updated, reboot⟩,
    st.onProc fun p => { p with isRebootRequired := p.isRebootRequired || reboot })

/-- One pass of `for (const auto& pair : _RFCKeyAndValueMap)`. -/
def applyParam (env : Env) (pair : Str × Str) (vars : ApplyVars) (st : St) : Exec St ApplyVars :=
  let (check, st) := isConfigValueChange env pair.1 pair.2 vars.currentValue st
  if check.changed = false then
    .ok (listParam pair.1 check.value check.currentValue vars) (st.log (.param pair.1 pair.2 skipped))
  else if check.value = [] then
    .ok ⟨check.currentValue, vars.paramList⟩ (st.log (.param pair.1 pair.2 skipped))
  else
    (if pair.1 = bootstrapXconfUrlKeyStr then processXconfUrl env check.value st
      else .ok .success st).bind fun rc st =>
    if rc ≠ .success then
      .ok ⟨check.currentValue, vars.paramList⟩ (st.log (.param pair.1 pair.2 skipped))
    else
      let (decision, st) := setParam env pair.1 check.value check.currentValue st
      .ok (listParam pair.1 check.value check.currentValue vars) (st.log (.param pair.1 pair.2 decision))

/-- Each element on a line of its own, behind what the file holds. -/
def updateTR181File (paramList : List Str) (dev : Device) : Device :=
  dev.append tr181FileList (paramList.flatMap fun data => data ++ "\n".toList)

/-- An empty map returns before the store is cleared. -/
def processXconfResponseConfigDataPart (env : Env) (features : List Json) (st : St) : Exec St Unit :=
  let st := st.log (.fill st.proc st.dev)
  match createConfigDataValueMap features st.proc.rfcKeyAndValueMap with
  | none => .crash st
  | some map =>
      let st := st.onProc fun p => { p with rfcKeyAndValueMap := map }
      if map.isEmpty then .ok () st
      else
        (Exec.forList (applyParam env) map.toList ⟨[], []⟩ (clearDB env st)).bind fun vars st =>
          .ok () (clearDBEnd env (st.onDev (updateTR181File vars.paramList)))

def processJsonResponse (env : Env) (body : Body) (st : St) : Exec St ReturnCode :=
  let st := st.log (.apply body)
  match body.features with
  | none => .ok .failure st
  | some features =>
      let (rfcList, dev) := writeFeatures features [] st.dev
      (processXconfResponseConfigDataPart env features { st with dev := dev }).bind fun _ st =>
        let st := st.onDev fun dev =>
          writeFile versionFile st.proc.firmwareVersion (writeFile featureFileList rfcList dev)
        .ok .success (st.log (.applied body st.dev))

end RfcMgr
