import RfcMgr.RequestRun

/-! `InitializeRuntimeFeatureControlProcessor`: what the processor takes from the platform, from the
files of the last run and from the hostif before its first request (STB build). It reads only. -/

namespace RfcMgr

def rfcPartnerNameKeyStr : Str := "Device.DeviceInfo.X_RDKCENTRAL-COM_RFC.Bootstrap.PartnerName".toList
def rfcOsclassKeyStr : Str := "Device.DeviceInfo.X_RDKCENTRAL-COM_RFC.Bootstrap.OsClass".toList
def rfcDebugsrv : Str := "Device.DeviceInfo.X_RDKCENTRAL-COM_RFC.Identity.DbgServices.Enable".toList
def rfcDevicetype : Str := "Device.DeviceInfo.X_RDKCENTRAL-COM_RFC.Identity.DeviceType".toList

/-- `BUILDTYPE`. -/
inductive BuildType where
  | unknown
  | dev
  | vbn
  | prod
  | qa
  deriving DecidableEq

/-- What the device libraries and the files outside `/opt/secure/RFC/` say at a start. A call that
fills no buffer leaves an empty text. -/
structure Platform where
  estbMac : Str
  firmwareVersion : Str
  buildTypeStr : Str
  ebuildType : BuildType
  modelNum : Str
  mfrName : Str
  partnerId : Str
  /-- `getDevicePropertyData`, when it finds the property. -/
  whoamiSupport : Option Str
  labsignedEnabled : Option Str
  /-- The texts of `/etc/rfc.properties` and `/opt/rfc.properties`. -/
  rfcProperties : Option Str
  rfcPropertiesPersistence : Option Str
  /-- The experience in the reply of the authentication service. -/
  experience : Str
  /-- The seconds since `DIRECT_BLOCK_FILENAME` was written, when it is there. -/
  lastDirectFail : Option Int

/-- `RuntimeFeatureControlProcessor()`. The constructor leaves `rfc_state` open; it is set before it
is read. -/
def Processor.constructed : Processor where
  accountId := []
  experience := []
  osclass := []
  xconfServerUrl := []
  rfcSelectOpt := []
  bkupHash := []
  rfcKeyAndValueMap := ∅
  rfcState := .invalid
  lastFirmware := []
  bootStrapXconfUrl := []
  validAccountId := []
  validPartnerId := []
  stashAccountId := []
  isRebootRequired := false
  isFirstRequest := false
  urlValidationInProgress := false
  rfcSelectorSlot := []
  estbMacAddress := []
  firmwareVersion := []
  buildTypeStr := []
  modelNumber := []
  manufacturer := []
  partnerId := []

def trueStr : Str := "true".toList

def checkWhoamiSupport (pl : Platform) : Bool :=
  match pl.whoamiSupport with
  | none => false
  | some value => stringCaseCompare value trueStr

def isDebugServicesEnabled (env : Env) (st : St) : Bool × St :=
  let (value, st) := st.read env rfcDebugsrv 512
  (value == some trueStr, st)

/-- The device type of the RFC store, cut down to `prod`, `test` or `unknown`. -/
def getDeviceTypeRFC (env : Env) (st : St) : Str × St :=
  match st.read env rfcDevicetype 512 with
  | (none, st) => ("unknown".toList, st)
  | (some value, st) =>
      (if stringCaseCompare (value.take 4) "prod".toList then "prod".toList
        else if stringCaseCompare (value.take 4) "test".toList then "test".toList
        else "unknown".toList, st)

/-- On a production build both parameters are read before the device property is looked at. -/
def isSecureDbgSrvUnlocked (pl : Platform) (env : Env) (st : St) : Bool × St :=
  match pl.ebuildType with
  | .unknown => (false, st)
  | .prod =>
      let (dbgServices, st) := isDebugServicesEnabled env st
      let (deviceType, st) := getDeviceTypeRFC env st
      match pl.labsignedEnabled with
      | none => (false, st)
      | some value =>
          (stringCaseCompare value trueStr && deviceType == "test".toList && dbgServices, st)
  | .dev | .vbn | .qa => (true, st)

/-- The reads of `GetBootstrapXconfUrl`, at most `MAX_RETRIES` of them. -/
def getBootstrapXconfUrl (env : Env) : Nat → St → St
  | 0, st => st
  | retries + 1, st =>
      match st.read env bootstrapXconfUrlKeyStr 1024 with
      | (none, st) => getBootstrapXconfUrl env retries st
      | (some url, st) => st.onProc fun p => { p with bootStrapXconfUrl := url }

/-- `initializeXconfHandler`. -/
def initializeXconfHandler (pl : Platform) (p : Processor) : Processor :=
  { p with
    estbMacAddress := pl.estbMac
    firmwareVersion := pl.firmwareVersion
    buildTypeStr := pl.buildTypeStr
    modelNumber := pl.modelNum
    manufacturer := pl.mfrName
    partnerId := if pl.partnerId = [] then unknownStr else pl.partnerId }

/-- The partner name it reads goes into a field that only the broadband build looks at. -/
def getRFCPartnerID (pl : Platform) (env : Env) (st : St) : St :=
  if checkWhoamiSupport pl then (st.read env rfcPartnerNameKeyStr 1024).2 else st

def serverUrlEntry : Str := "RFC_CONFIG_SERVER_URL=".toList

/-- The URL in the first line of the file that names one. -/
def serverUrlOf (text : Str) : Str :=
  (((fileLines text).find? fun line => serverUrlEntry.isPrefixOf line).map fun line =>
    line.drop serverUrlEntry.length).getD []

def getServURL (file : Option Str) (p : Processor) : ReturnCode × Processor :=
  match file with
  | none => (.failure, p)
  | some text =>
      let p := { p with xconfServerUrl := serverUrlOf text }
      (if p.xconfServerUrl = [] then .failure else .success, p)

/-- `X1` is what an STB has without an answer. -/
def getExperience (pl : Platform) (p : Processor) : Processor :=
  { p with experience := if pl.experience = [] then "X1".toList else pl.experience }

/-- `std::getline` on the version file; without a file, the field stays as it is. -/
def getLastProcessedFirmware (dev : Device) (p : Processor) : Processor :=
  match dev.files versionFile with
  | none => p
  | some text => { p with lastFirmware := (fileLines text).head?.getD [] }

def getOsClass (pl : Platform) (env : Env) (st : St) : St :=
  if checkWhoamiSupport pl then
    match st.read env rfcOsclassKeyStr 100 with
    | (none, st) => st
    | (some value, st) => st.onProc fun p => { p with osclass := value }
  else st

def isNewFirmwareFirstRequest (p : Processor) : Bool :=
  decide (p.lastFirmware = [] ∨ (p.firmwareVersion ≠ [] ∧ p.lastFirmware ≠ p.firmwareVersion))

/-- `MAX_RETRIES` of `GetBootstrapXconfUrl`. -/
def bootstrapRetries : Nat := 10

/-- The local override counts on an unlocked device only; without the file nothing is read for it. -/
def isLocalOverride (pl : Platform) (env : Env) (st : St) : Bool × St :=
  if pl.rfcPropertiesPersistence.isSome then isSecureDbgSrvUnlocked pl env st else (false, st)

def chooseRfcFile (pl : Platform) (env : Env) (st : St) : Option Str × St :=
  let (isLocal, st) := isLocalOverride pl env st
  (if isLocal then pl.rfcPropertiesPersistence else pl.rfcProperties,
    st.onProc fun p => { p with rfcState := if isLocal then .local else .init })

/-- The part behind `GetServURL`. -/
def lookUpIdentity (pl : Platform) (env : Env) (st : St) : St :=
  (getOsClass pl env (getAccountID env ((st.onProc (getExperience pl)).onProc
    (getLastProcessedFirmware st.dev)))).onProc fun p =>
      { p with isFirstRequest := isNewFirmwareFirstRequest p }

def initializeRuntimeFeatureControlProcessor (pl : Platform) (env : Env) (st : St) :
    ReturnCode × St :=
  let st := getBootstrapXconfUrl env bootstrapRetries st
  let st := getRFCPartnerID pl env (st.onProc (initializeXconfHandler pl))
  let (rfcFile, st) := chooseRfcFile pl env st
  match getServURL rfcFile st.proc with
  | (.success, p) => (.success, lookUpIdentity pl env (st.onProc fun _ => p))
  | (_, p) => (.failure, st.onProc fun _ => p)

/-- A direct connection that failed less than a day ago. -/
def isDirectBlocked (pl : Platform) : Bool :=
  match pl.lastDirectFail with
  | none => false
  | some modtime => decide (modtime ≤ 86400)

/-- What the platform decides of what a run meets. -/
def Platform.env (pl : Platform) (env : Env) (isDebugServicesUnlocked : Bool) : Env :=
  { env with
    directBlocked := isDirectBlocked pl
    isDebugServicesUnlocked := isDebugServicesUnlocked
    checkWhoamiSupport := checkWhoamiSupport pl }

/-! ### What the start leaves alone -/

/-- `t` differs from `s` in its processor and in the counters of reads. -/
structure StartFrame (s t : St) : Prop where
  files : t.dev.files = s.dev.files
  rfcStore : t.dev.rfcStore = s.dev.rfcStore
  sets : t.dev.sets = s.dev.sets
  events : t.events = s.events

section StartFrame

variable {s t u : St}

theorem StartFrame.refl (s : St) : StartFrame s s := ⟨rfl, rfl, rfl, rfl⟩

theorem StartFrame.trans (hst : StartFrame s t) (htu : StartFrame t u) : StartFrame s u :=
  ⟨htu.files.trans hst.files, htu.rfcStore.trans hst.rfcStore, htu.sets.trans hst.sets,
    htu.events.trans hst.events⟩

theorem StartFrame.onProc (h : StartFrame s t) (f : Processor → Processor) :
    StartFrame s (t.onProc f) := ⟨h.files, h.rfcStore, h.sets, h.events⟩

theorem startFrame_read (env : Env) (st : St) (key : Str) (datasize : Nat) :
    StartFrame st (st.read env key datasize).2 := by
  refine ⟨St.read_files .., St.read_rfcStore .., ?_, rfl⟩
  have hread := Device.readRFCProperty_snd env.hostif st.dev key datasize
  show (st.dev.readRFCProperty env.hostif key datasize).2.sets = st.dev.sets
  rw [hread, Device.getRFCParameter_sets]

theorem startFrame_getBootstrapXconfUrl (env : Env) (retries : Nat) (st : St) :
    StartFrame st (getBootstrapXconfUrl env retries st) := by
  induction retries generalizing st with
  | zero => exact .refl st
  | succ retries ih =>
      have hread := startFrame_read env st bootstrapXconfUrlKeyStr 1024
      simp only [getBootstrapXconfUrl]
      split
      next st' hvalue =>
        rw [hvalue] at hread
        exact hread.trans (ih st')
      next url st' hvalue =>
        rw [hvalue] at hread
        exact hread.onProc _

theorem getBootstrapXconfUrl_proc (env : Env) (retries : Nat) (st : St) :
    ∃ url, (getBootstrapXconfUrl env retries st).proc = { st.proc with bootStrapXconfUrl := url } := by
  induction retries generalizing st with
  | zero => exact ⟨st.proc.bootStrapXconfUrl, rfl⟩
  | succ retries ih =>
      have hproc := St.read_proc env st bootstrapXconfUrlKeyStr 1024
      simp only [getBootstrapXconfUrl]
      split
      next st' hvalue =>
        rw [hvalue] at hproc
        obtain ⟨url, hurl⟩ := ih st'
        exact ⟨url, by rw [hurl, show st'.proc = st.proc from hproc]⟩
      next url st' hvalue =>
        rw [hvalue] at hproc
        exact ⟨url, by rw [St.onProc_proc, show st'.proc = st.proc from hproc]⟩

theorem startFrame_getRFCPartnerID (pl : Platform) (env : Env) (st : St) :
    StartFrame st (getRFCPartnerID pl env st) ∧ (getRFCPartnerID pl env st).proc = st.proc := by
  unfold getRFCPartnerID
  split
  · exact ⟨startFrame_read .., rfl⟩
  · exact ⟨.refl st, rfl⟩

theorem startFrame_getDeviceTypeRFC (env : Env) (st : St) :
    StartFrame st (getDeviceTypeRFC env st).2 := by
  have hread := startFrame_read env st rfcDevicetype 512
  unfold getDeviceTypeRFC
  split
  next hvalue => rwa [hvalue] at hread
  next hvalue => rwa [hvalue] at hread

/-- Asking whether the device is unlocked changes no processor either. -/
theorem startFrame_isSecureDbgSrvUnlocked (pl : Platform) (env : Env) (st : St) :
    StartFrame st (isSecureDbgSrvUnlocked pl env st).2 ∧
      (isSecureDbgSrvUnlocked pl env st).2.proc = st.proc := by
  have hdbg : StartFrame st (isDebugServicesEnabled env st).2 :=
    startFrame_read env st rfcDebugsrv 512
  have htype := startFrame_getDeviceTypeRFC env (isDebugServicesEnabled env st).2
  have hproc : (getDeviceTypeRFC env (isDebugServicesEnabled env st).2).2.proc = st.proc := by
    have hread := St.read_proc env (isDebugServicesEnabled env st).2 rfcDevicetype 512
    unfold getDeviceTypeRFC
    split
    next hvalue => rwa [hvalue] at hread
    next hvalue => rwa [hvalue] at hread
  unfold isSecureDbgSrvUnlocked
  split
  · exact ⟨.refl st, rfl⟩
  · simp only
    split
    · exact ⟨hdbg.trans htype, hproc⟩
    · exact ⟨hdbg.trans htype, hproc⟩
  · exact ⟨.refl st, rfl⟩
  · exact ⟨.refl st, rfl⟩
  · exact ⟨.refl st, rfl⟩

theorem startFrame_isLocalOverride (pl : Platform) (env : Env) (st : St) :
    StartFrame st (isLocalOverride pl env st).2 ∧ (isLocalOverride pl env st).2.proc = st.proc := by
  unfold isLocalOverride
  split
  · exact startFrame_isSecureDbgSrvUnlocked pl env st
  · exact ⟨.refl st, rfl⟩

theorem startFrame_chooseRfcFile (pl : Platform) (env : Env) (st : St) :
    StartFrame st (chooseRfcFile pl env st).2 ∧ ∃ state, (state = .init ∨ state = .local) ∧
      (chooseRfcFile pl env st).2.proc = { st.proc with rfcState := state } := by
  obtain ⟨hframe, hproc⟩ := startFrame_isLocalOverride pl env st
  cases hlocal : (isLocalOverride pl env st).1 with
  | true =>
      refine ⟨hframe.onProc fun p => { p with rfcState := if (isLocalOverride pl env st).1 then .local
        else .init }, .local, .inr rfl, ?_⟩
      simp only [chooseRfcFile, hlocal, if_true, St.onProc_proc, hproc]
  | false =>
      refine ⟨hframe.onProc fun p => { p with rfcState := if (isLocalOverride pl env st).1 then .local
        else .init }, .init, .inl rfl, ?_⟩
      simp only [chooseRfcFile, hlocal, Bool.false_eq_true, if_false, St.onProc_proc, hproc]

/-- The account before the first request: what the store says, on the firmware of the last applied
response. -/
theorem startFrame_getAccountID (env : Env) (st : St) :
    StartFrame st (getAccountID env st) ∧ ∃ accountId,
      (getAccountID env st).proc = { st.proc with accountId := accountId } ∧
      (st.proc.lastFirmware ≠ st.proc.firmwareVersion →
        accountId = st.proc.accountId ∨ accountId = unknownStr) := by
  have hread := startFrame_read env st rfcAccountIdKeyStr 1024
  have hproc := St.read_proc env st rfcAccountIdKeyStr 1024
  unfold getAccountID
  split
  next st' hvalue =>
    rw [hvalue] at hread hproc
    exact ⟨hread, st.proc.accountId, hproc, fun _ => .inl rfl⟩
  next tempbuf st' hvalue =>
    rw [hvalue] at hread hproc
    have hsame : st'.proc = st.proc := hproc
    refine ⟨hread.onProc _, _, by rw [St.onProc_proc, hsame], fun hne => .inr ?_⟩
    exact if_pos (.inr hne)

theorem startFrame_getOsClass (pl : Platform) (env : Env) (st : St) :
    StartFrame st (getOsClass pl env st) ∧ ∃ osclass,
      (getOsClass pl env st).proc = { st.proc with osclass := osclass } := by
  have hread := startFrame_read env st rfcOsclassKeyStr 100
  have hproc := St.read_proc env st rfcOsclassKeyStr 100
  unfold getOsClass
  split
  · split
    next st' hvalue =>
      rw [hvalue] at hread hproc
      exact ⟨hread, st.proc.osclass, hproc⟩
    next value st' hvalue =>
      rw [hvalue] at hread hproc
      have hsame : st'.proc = st.proc := hproc
      exact ⟨hread.onProc _, value, by rw [St.onProc_proc, hsame]⟩
  · exact ⟨.refl st, st.proc.osclass, rfl⟩

end StartFrame

/-! ### The processor at the first request -/

/-- The first line of a file, empty when there is none. -/
def firstLine (text : Option Str) : Str := (text.bind fun text => (fileLines text).head?).getD []

theorem getLastProcessedFirmware_eq (dev : Device) (p : Processor) (hempty : p.lastFirmware = []) :
    getLastProcessedFirmware dev p = { p with lastFirmware := firstLine (dev.files versionFile) } := by
  unfold getLastProcessedFirmware
  split
  next hfile =>
    rw [hfile, show firstLine none = p.lastFirmware from hempty.symm]
  next text hfile =>
    rw [hfile]
    rfl

/-- What the start has made of the processor when it is over. -/
structure Started (pl : Platform) (dev : Device) (st : St) : Prop where
  files : st.dev.files = dev.files
  rfcStore : st.dev.rfcStore = dev.rfcStore
  sets : st.dev.sets = dev.sets
  events : st.events = []
  map : st.proc.rfcKeyAndValueMap = ∅
  flag : st.proc.urlValidationInProgress = false
  reboot : st.proc.isRebootRequired = false
  state : st.proc.rfcState = .init ∨ st.proc.rfcState = .local
  firmwareVersion : st.proc.firmwareVersion = pl.firmwareVersion
  lastFirmware : st.proc.lastFirmware = firstLine (dev.files versionFile)
  isFirstRequest : st.proc.isFirstRequest = isNewFirmwareFirstRequest st.proc
  accountId : st.proc.lastFirmware ≠ st.proc.firmwareVersion →
    st.proc.accountId = [] ∨ st.proc.accountId = unknownStr
  partnerId : st.proc.partnerId = if pl.partnerId = [] then unknownStr else pl.partnerId
  serverUrl : st.proc.xconfServerUrl ≠ []

theorem lookUpIdentity_spec (pl : Platform) (env : Env) (st : St) (hempty : st.proc.lastFirmware = []) :
    StartFrame st (lookUpIdentity pl env st) ∧ ∃ experience accountId osclass isFirstRequest,
      (lookUpIdentity pl env st).proc = { st.proc with
        experience := experience, lastFirmware := firstLine (st.dev.files versionFile)
        accountId := accountId, osclass := osclass, isFirstRequest := isFirstRequest } ∧
      isFirstRequest = isNewFirmwareFirstRequest (lookUpIdentity pl env st).proc ∧
      (firstLine (st.dev.files versionFile) ≠ st.proc.firmwareVersion →
        accountId = st.proc.accountId ∨ accountId = unknownStr) := by
  have hlast := getLastProcessedFirmware_eq st.dev (getExperience pl st.proc) hempty
  generalize hread : (st.onProc (getExperience pl)).onProc (getLastProcessedFirmware st.dev) = read
  have hreadFrame : StartFrame st read := by
    rw [← hread]
    exact ((StartFrame.refl st).onProc _).onProc _
  have hreadProc : read.proc = { getExperience pl st.proc with
      lastFirmware := firstLine (st.dev.files versionFile) } := by
    rw [← hread, St.onProc_proc, St.onProc_proc, hlast]
  obtain ⟨haccountFrame, accountId, haccount, hunknown⟩ := startFrame_getAccountID env read
  obtain ⟨hclassFrame, osclass, hclass⟩ := startFrame_getOsClass pl env (getAccountID env read)
  have hproc : (getOsClass pl env (getAccountID env read)).proc = { st.proc with
      experience := (getExperience pl st.proc).experience
      lastFirmware := firstLine (st.dev.files versionFile)
      accountId := accountId, osclass := osclass } := by
    rw [hclass, haccount, hreadProc]
    rfl
  rw [hreadProc] at hunknown
  simp only [lookUpIdentity, hread]
  refine ⟨((hreadFrame.trans haccountFrame).trans hclassFrame).onProc _,
    (getExperience pl st.proc).experience, accountId, osclass,
    isNewFirmwareFirstRequest (getOsClass pl env (getAccountID env read)).proc, ?_, rfl, hunknown⟩
  rw [St.onProc_proc, hproc]

theorem getServURL_success {file : Option Str} {p p' : Processor}
    (h : getServURL file p = (.success, p')) : ∃ url, url ≠ [] ∧ p' = { p with xconfServerUrl := url } := by
  cases file with
  | none =>
      simp only [getServURL] at h
      cases h
  | some text =>
      simp only [getServURL] at h
      by_cases hempty : serverUrlOf text = []
      · rw [if_pos hempty] at h
        cases h
      · rw [if_neg hempty] at h
        exact ⟨serverUrlOf text, hempty, (Prod.mk.inj h).2.symm⟩

/-- The state in which the server URL is looked up. -/
theorem startFrame_front (pl : Platform) (env : Env) (dev : Device) :
    let st := getRFCPartnerID pl env ((getBootstrapXconfUrl env bootstrapRetries
      ⟨.constructed, dev, []⟩).onProc (initializeXconfHandler pl))
    StartFrame ⟨.constructed, dev, []⟩ (chooseRfcFile pl env st).2 ∧
      ∃ url state, (state = .init ∨ state = .local) ∧ (chooseRfcFile pl env st).2.proc =
        { initializeXconfHandler pl { Processor.constructed with bootStrapXconfUrl := url } with
          rfcState := state } := by
  have hurlFrame := startFrame_getBootstrapXconfUrl env bootstrapRetries ⟨.constructed, dev, []⟩
  obtain ⟨url, hurl⟩ := getBootstrapXconfUrl_proc env bootstrapRetries ⟨.constructed, dev, []⟩
  generalize getBootstrapXconfUrl env bootstrapRetries ⟨.constructed, dev, []⟩ = read at hurlFrame hurl
  obtain ⟨hpartner, hpartnerProc⟩ :=
    startFrame_getRFCPartnerID pl env (read.onProc (initializeXconfHandler pl))
  intro st
  obtain ⟨hfile, state, hstate, hfileProc⟩ := startFrame_chooseRfcFile pl env st
  refine ⟨((hurlFrame.onProc _).trans hpartner).trans hfile, url, state, hstate, ?_⟩
  rw [hfileProc, hpartnerProc, St.onProc_proc, hurl]

/-- **What a start that succeeds leaves.** -/
theorem initialize_started {pl : Platform} {env : Env} {dev : Device} {st : St}
    (h : initializeRuntimeFeatureControlProcessor pl env ⟨.constructed, dev, []⟩ = (.success, st)) :
    Started pl dev st := by
  obtain ⟨hfront, url, state, hstate, hproc⟩ := startFrame_front pl env dev
  simp only [initializeRuntimeFeatureControlProcessor] at h
  generalize chooseRfcFile pl env (getRFCPartnerID pl env ((getBootstrapXconfUrl env
    bootstrapRetries ⟨.constructed, dev, []⟩).onProc (initializeXconfHandler pl))) = chosen
    at h hfront hproc
  obtain ⟨rfcFile, st₁⟩ := chosen
  split at h
  next p hurl =>
    obtain ⟨serverUrl, hne, rfl⟩ := getServURL_success hurl
    cases h
    have hlast : st₁.proc.lastFirmware = [] := congrArg Processor.lastFirmware hproc
    have hnone : st₁.proc.accountId = [] := congrArg Processor.accountId hproc
    have hfirmware : st₁.proc.firmwareVersion = pl.firmwareVersion :=
      congrArg Processor.firmwareVersion hproc
    obtain ⟨hlook, experience, accountId, osclass, isFirst, hlooked, hfirst, haccount⟩ :=
      lookUpIdentity_spec pl env (st₁.onProc fun _ => { st₁.proc with xconfServerUrl := serverUrl }) hlast
    have hall := StartFrame.trans (hfront.onProc fun _ => { st₁.proc with xconfServerUrl := serverUrl })
      hlook
    rw [show (st₁.onProc _).dev.files = dev.files from hfront.files] at hlooked haccount
    generalize lookUpIdentity pl env (st₁.onProc _) = t at hlooked hfirst hall
    exact
      { files := hall.files
        rfcStore := hall.rfcStore
        sets := hall.sets
        events := hall.events
        map := (congrArg Processor.rfcKeyAndValueMap hlooked).trans
          (congrArg Processor.rfcKeyAndValueMap hproc)
        flag := (congrArg Processor.urlValidationInProgress hlooked).trans
          (congrArg Processor.urlValidationInProgress hproc)
        reboot := (congrArg Processor.isRebootRequired hlooked).trans
          (congrArg Processor.isRebootRequired hproc)
        state := by
          rw [hlooked, St.onProc_proc, hproc]
          exact hstate
        firmwareVersion := (congrArg Processor.firmwareVersion hlooked).trans hfirmware
        lastFirmware := congrArg Processor.lastFirmware hlooked
        isFirstRequest := (congrArg Processor.isFirstRequest hlooked).trans hfirst
        accountId := by
          rw [hlooked]
          simp only [St.onProc_proc, hnone] at haccount
          exact haccount
        partnerId := (congrArg Processor.partnerId hlooked).trans (congrArg Processor.partnerId hproc)
        serverUrl := by
          rw [hlooked]
          exact hne }
  next => cases h

/-- A start that fails has only read as well. -/
theorem initialize_frame (pl : Platform) (env : Env) (dev : Device) :
    StartFrame ⟨.constructed, dev, []⟩
      (initializeRuntimeFeatureControlProcessor pl env ⟨.constructed, dev, []⟩).2 := by
  obtain ⟨hfront, -⟩ := startFrame_front pl env dev
  cases hinit : initializeRuntimeFeatureControlProcessor pl env ⟨.constructed, dev, []⟩ with
  | mk rc st =>
      simp only [initializeRuntimeFeatureControlProcessor] at hinit
      split at hinit
      next hurl =>
        have hsuccess : initializeRuntimeFeatureControlProcessor pl env ⟨.constructed, dev, []⟩ =
            (.success, st) := by
          simp only [initializeRuntimeFeatureControlProcessor]
          rw [hurl]
          exact congrArg (fun pair => (ReturnCode.success, pair.2)) hinit
        have hstarted := initialize_started hsuccess
        exact ⟨hstarted.files, hstarted.rfcStore, hstarted.sets, hstarted.events⟩
      next p _ _ =>
        cases hinit
        exact StartFrame.onProc hfront fun _ => p

/-- A production device with a properties file. -/
def Platform.plain : Platform where
  estbMac := "AA:BB:CC:DD:EE:FF".toList
  firmwareVersion := "V1".toList
  buildTypeStr := "prod".toList
  ebuildType := .prod
  modelNum := "M1".toList
  mfrName := "RDK".toList
  partnerId := "comcast".toList
  whoamiSupport := none
  labsignedEnabled := none
  rfcProperties := some "RFC_CONFIG_SERVER_URL=https://xconf/featureControl/getSettings\n".toList
  rfcPropertiesPersistence := none
  experience := []
  lastDirectFail := none

end RfcMgr
