import RfcMgr.Rbus
import RfcMgr.Apply

/-! `ProcessJsonResponseB`, the apply step of the RDKB build. It walks over the features twice: a first
pass hands each configData member to `ParseConfigValue`, and `processXconfResponseConfigDataPart` then
reads them all into one map and sets its parameters, key by key.

What the step writes to files and the commands it starts are left out, the reboot script apart: nothing
of it is read back on the way. -/

namespace RfcMgr.Rdkb

/-! ### The first pass -/

def wanFailOverSupportKey : Str :=
  "Device.DeviceInfo.X_RDKCENTRAL-COM_RFC.Feature.WanFailOverSupport.Enable".toList
def wanUnificationKey : Str :=
  "Device.DeviceInfo.X_RDKCENTRAL-COM_RFC.Feature.WanUnification.Enable".toList
def uPnPRefactorKey : Str :=
  "Device.DeviceInfo.X_RDKCENTRAL-COM_RFC.Feature.UPnP.Refactor.Enable".toList
def xupnpKey : Str := "Device.DeviceInfo.X_RDKCENTRAL-COM_RFC.Feature.Xupnp".toList
def selectedOperationalModeKey : Str :=
  "Device.X_RDKCENTRAL-COM_EthernetWAN.SelectedOperationalMode".toList
def docsisSelectionKey : Str := "Device.X_RDK_WanManager.Interface.[DOCSIS].Selection.Enable".toList
def wanoeSelectionKey : Str := "Device.X_RDK_WanManager.Interface.[WANOE].Selection.Enable".toList

/-- `configKey` without the `tr181.` in front. -/
def paramNameOf (configKey : Str) : Str :=
  if "tr181.".toList.isPrefixOf configKey then configKey.drop 6 else configKey

/-- The text a switch parameter is compared as; it stays empty when the get fails or has another type.
A null pointer that is assigned to it crashes. -/
def switchText (env : Env) (key : Str) (st : St) : Exec St Str :=
  match st.rbusGet env key with
  | (some (.boolean value), st) => .ok (boolText value) st
  | (some (.string (some text)), st) => .ok text st
  | (some (.string none), st) => .crash st
  | (_, st) => .ok [] st

/-- `paramValue` for the types that `ParseConfigValue` handles. -/
def RbusValue.paramValue : RbusValue → Option Str
  | .string text => text
  | .boolean value => some (boolText value)
  | .int32 value => some (toString value.toInt).toList
  | .uint32 value => some (toString value.toNat).toList
  | .single printed => some printed
  | .double printed => some printed
  | _ => none

/-- What is set in place of `SelectedOperationalMode`. -/
def selectInterfaces (env : Env) (configValue : Str) (st : St) : St :=
  let enableEth := decide (configValue ≠ "DOCSIS".toList)
  let enableDocsis := decide (configValue ≠ "Ethernet".toList)
  let st := (st.rbusSet env docsisSelectionKey (.boolean enableDocsis)).2
  (st.rbusSet env wanoeSelectionKey (.boolean enableEth)).2

/-- An accepted set of a value that differs from the old one raises `rfcRebootCronNeeded`. -/
def rebootAfterSet (paramName paramValue : Str) (rebootValue rfcRebootCronNeeded : Bool) : Bool :=
  rfcRebootCronNeeded || rebootValue ||
    (paramName == rfcPartnerIdKeyStr && (paramValue == "unknown".toList || paramValue == unknownStr))

/-- A set goes out when the value differs, and for a parameter of the RFC namespace in any case. -/
def sendUpdate (env : Env) (paramName configValue : Str) (paramType : RbusValueType) (paramValue : Str)
    (rebootValue rfcRebootCronNeeded : Bool) (st : St) : Exec St (Bool × Bool) :=
  if paramValue ≠ configValue then
    match newValue env paramType configValue with
    | none => .ok (true, rfcRebootCronNeeded) st
    | some value =>
        match st.rbusSet env paramName value with
        | (true, st) =>
            .ok (true, rebootAfterSet paramName paramValue rebootValue rfcRebootCronNeeded) st
        | (false, st) => .ok (true, rfcRebootCronNeeded) st
  else if contains paramName ".X_RDKCENTRAL-COM_RFC.".toList then
    match newValue env paramType configValue with
    | none => .ok (true, rfcRebootCronNeeded) st
    | some value => .ok (true, rfcRebootCronNeeded) (st.rbusSet env paramName value).2
  else .ok (true, rfcRebootCronNeeded) st

/-- The part of `ParseConfigValue` behind its special cases. -/
def updateParam (env : Env) (paramName configValue : Str) (rebootValue rfcRebootCronNeeded : Bool)
    (st : St) : Exec St (Bool × Bool) :=
  match st.rbusGet env paramName with
  | (some (.string none), st) => .crash st
  | (none, st) => .ok (true, rfcRebootCronNeeded) st
  | (some paramVal, st) =>
      match paramVal.paramValue with
      | none => .ok (true, rfcRebootCronNeeded) st
      | some paramValue =>
          sendUpdate env paramName configValue paramVal.type paramValue rebootValue rfcRebootCronNeeded st

/-- `ParseConfigValue` behind the check of `WanFailOverSupport`. -/
def parseUnified (env : Env) (paramName configValue : Str) (rebootValue rfcRebootCronNeeded : Bool)
    (st : St) : Exec St (Bool × Bool) :=
  (switchText env wanUnificationKey st).bind fun wanUnificationEnable st =>
  if wanUnificationEnable = trueText ∧ paramName = selectedOperationalModeKey then
    .ok (true, rfcRebootCronNeeded) (selectInterfaces env configValue st)
  else updateParam env paramName configValue rebootValue rfcRebootCronNeeded st

/-- `ParseConfigValue` once the bus is open. -/
def parseOpened (env : Env) (paramName configValue : Str) (rebootValue rfcRebootCronNeeded : Bool)
    (st : St) : Exec St (Bool × Bool) :=
  (switchText env wanFailOverSupportKey st).bind fun wanFailOverSupportEnable st =>
  if wanFailOverSupportEnable = trueText ∧ (paramName = uPnPRefactorKey ∨ paramName = xupnpKey) then
    .ok (true, rfcRebootCronNeeded) st
  else parseUnified env paramName configValue rebootValue rfcRebootCronNeeded st

/-- What is returned, and what becomes of `rfcRebootCronNeeded`. -/
def parseConfigValue (env : Env) (configKey configValue : Str) (rebootValue rfcRebootCronNeeded : Bool)
    (st : St) : Exec St (Bool × Bool) :=
  match st.rbusOpen env with
  | (false, st) => .ok (false, rfcRebootCronNeeded) st
  | (true, st) =>
      parseOpened env (paramNameOf configKey) configValue rebootValue rfcRebootCronNeeded st

/-- One turn of `while (child)`. -/
def parseChild (env : Env) (effectiveImmediate : Bool) (child : Option Str × Json)
    (rfcRebootCronNeeded : Bool) (st : St) : Exec St Bool :=
  match stringMember child with
  | none => .ok rfcRebootCronNeeded st
  | some (configKey, configValue) =>
      (parseConfigValue env configKey configValue effectiveImmediate rfcRebootCronNeeded st).bind
        fun result st => .ok result.2 st

def parseFeature (env : Env) (feature : Json) (rfcRebootCronNeeded : Bool) (st : St) : Exec St Bool :=
  match readFeature feature with
  | none => .ok rfcRebootCronNeeded st
  | some rfcObj =>
      match feature.getJsonItem configDataStr with
      | none => .ok rfcRebootCronNeeded st
      | some configData =>
          Exec.forList (parseChild env rfcObj.effectiveImmediate) configData.children
            rfcRebootCronNeeded st

/-! ### The second pass -/

def bootstrapXconfUrlKeyStr : Str := "Device.DeviceInfo.X_RDKCENTRAL-COM_Syndication.XconfURL".toList

def checkBootstrap (env : Env) (st : St) (target : Str) : Bool :=
  match env.bsStore st.calls with
  | none => false
  | some text => (fileLines text).any fun line => contains line target

/-- Whether the value counts as changed, and what is left in `currentValue`. -/
def isConfigValueChange (env : Env) (key value currentValue : Str) (st : St) : (Bool × Str) × St :=
  match readRFCProperty env key 4096 st with
  | (none, st) => ((true, currentValue), st)
  | (some current, st) =>
      if !checkBootstrap env st key && !contains key ".X_RDKCENTRAL-COM_RFC.".toList then
        ((decide (value ≠ current), current), st)
      else ((true, current), st)

/-- In the state `Init` the selector is read, unless the firmware has changed. The hash and the time of a
request come from files. -/
def getStoredHashAndTime (env : Env) (st : St) : St :=
  if st.proc.lastFirmware = st.proc.firmwareVersion ∧ st.proc.rfcState = .init then
    (readRFCProperty env xconfSelectorKeyStr 1024 st).2
  else st

/-- `DownloadRuntimeFeatutres` while a URL is validated. -/
def downloadRuntimeFeatutres (env : Env) (allocated : Bool) (x : Exchange) (st : St) :
    ReturnCode × St :=
  if x.hashParamAllocated = false ∨ allocated = false then (.failure, st)
  else (if x.httpCode = 304 ∨ x.httpCode = 200 then .success else .failure,
    getStoredHashAndTime env st)

def validateXconfUrl (env : Env) (allocated : Bool) : Nat → Nat → St → ReturnCode × St
  | 0, _, st => (.failure, st)
  | tries + 1, i, st =>
      let (rc, st) := downloadRuntimeFeatutres env allocated (env.validation i) st
      if rc = .success then (rc, st) else validateXconfUrl env allocated tries (i + 1) st

/-- When only the second buffer is missing, the first one is freed at once and again at the end. -/
def processXconfUrl (env : Env) (st : St) : Exec St ReturnCode :=
  let allocated := env.validationDwnLocAllocated && env.validationHeaderAllocated
  let (rc, st) := validateXconfUrl env allocated 2 0 st
  if env.validationDwnLocAllocated && !env.validationHeaderAllocated then .crash st else .ok rc st

/-- One turn of `for (const auto& pair : _RFCKeyAndValueMap)`. Nothing is left out here. -/
def applyParam (env : Env) (pair : Str × Str) (vars : ApplyVars) (st : St) : Exec St ApplyVars :=
  let ((configChanged, currentValue), st) := isConfigValueChange env pair.1 pair.2 vars.currentValue st
  if configChanged = false then .ok (listParam pair.1 pair.2 currentValue vars) st
  else
    (if pair.1 = bootstrapXconfUrlKeyStr then processXconfUrl env st else .ok .success st).bind
      fun rc st =>
    if rc ≠ .success then .ok ⟨currentValue, vars.paramList⟩ st
    else
      (setRFCProperty env pair.1 pair.2 st).bind fun _ st =>
        .ok (listParam pair.1 pair.2 currentValue vars) st

def withMap (map : ConfigMap) (st : St) : St :=
  { st with proc := { st.proc with rfcKeyAndValueMap := map } }

def processXconfResponseConfigDataPart (env : Env) (features : List Json) (st : St) : Exec St Unit :=
  match createConfigDataValueMap features st.proc.rfcKeyAndValueMap with
  | none => .crash st
  | some map =>
      if map.isEmpty then .ok () (withMap map st)
      else (Exec.forList (applyParam env) map.toList ⟨[], []⟩ (withMap map st)).bind
        fun _ st => .ok () st

/-! ### The whole step -/

def codebigSupportKey : Str := "Device.DeviceInfo.X_RDKCENTRAL-COM_RFC.Feature.CodebigSupport".toList
def containerSupportKey : Str :=
  "Device.DeviceInfo.X_RDKCENTRAL-COM_RFC.Feature.ContainerSupport".toList

/-- The sets before the body is parsed. -/
def setInitial (env : Env) (st : St) : St :=
  let st := (st.rbusSet env codebigSupportKey (.boolean false)).2
  let st := (st.rbusSet env containerSupportKey (.boolean false)).2
  (st.rbusSet env clearDBKey (.boolean true)).2

def setClearDBEnd (env : Env) (st : St) : St := (st.rbusSet env clearDBEndKey (.boolean true)).2

/-- The account read here is only compared and logged. -/
def rfcCheckAccountId (env : Env) (st : St) : St := (readRFCProperty env rfcAccountIdKeyStr 1024 st).2

def handleScheduledReboot (rfcRebootCronNeeded : Bool) (st : St) : St :=
  { st with rebootScheduled := st.rebootScheduled || rfcRebootCronNeeded }

def processJsonResponseB (env : Env) (body : Body) (st : St) : Exec St ReturnCode :=
  match st.rbusOpen env with
  | (false, st) => .ok .failure st
  | (true, st) =>
      let st := setInitial env st
      match body with
      | none => .ok .failure st
      | some pJson =>
          let array := getRuntimeFeatureControlJSON pJson
          let features := array.getD []
          (Exec.forList (parseFeature env) features false st).bind fun rfcRebootCronNeeded st =>
          (processXconfResponseConfigDataPart env features (setClearDBEnd env st)).bind fun _ st =>
            let st := handleScheduledReboot rfcRebootCronNeeded (rfcCheckAccountId env st)
            -- without the array `GetRuntimeFeatureControlJSON` has freed the body, and it is freed again
            if array.isNone then .crash st else .ok .success st

/-! ### The name of a key in the two passes -/

/-- `tr181.` occurs in the key nowhere, or in front of it and nowhere behind that. -/
def OnlyInFront (key : Str) : Prop :=
  ¬ "tr181.".toList <:+: key ∨
    ∃ rest, key = "tr181.".toList ++ rest ∧ ¬ "tr181.".toList <:+: rest

theorem paramNameOf_append (rest : Str) : paramNameOf ("tr181.".toList ++ rest) = rest := by
  rw [paramNameOf, if_pos (List.isPrefixOf_iff_prefix.mpr (List.prefix_append _ _))]
  rfl

theorem paramNameOf_of_not_prefix {key : Str} (h : ¬ "tr181.".toList <+: key) :
    paramNameOf key = key :=
  if_neg (mt List.isPrefixOf_iff_prefix.mp h)

/-- The first pass strips one `tr181.` in front, the map loses every one that is in the key or forms
when another is erased: the two names agree when there is nothing more to lose. -/
theorem normaliseKey_eq_paramNameOf_iff (key : Str) :
    normaliseKey key = paramNameOf key ↔ OnlyInFront key := by
  have hne : "tr181.".toList ≠ [] := by simp
  by_cases hfront : "tr181.".toList <+: key
  · obtain ⟨rest, rfl⟩ := hfront
    rw [normaliseKey, removeSubstring_append hne, paramNameOf_append, removeSubstring_eq_self_iff hne]
    constructor
    · intro hrest
      exact Or.inr ⟨rest, rfl, hrest⟩
    · rintro (hkey | ⟨rest', hkey, hrest⟩)
      · exact absurd (List.prefix_append _ rest).isInfix hkey
      · rwa [List.append_cancel_left hkey]
  · rw [normaliseKey, paramNameOf_of_not_prefix hfront, removeSubstring_eq_self_iff hne]
    constructor
    · exact Or.inl
    · rintro (hkey | ⟨rest, rfl, -⟩)
      · exact hkey
      · exact absurd (List.prefix_append _ rest) hfront

theorem names_of_inner_tr181 :
    ¬ normaliseKey "Device.tr181.X".toList = paramNameOf "Device.tr181.X".toList := by
  decide

end RfcMgr.Rdkb
