import RfcMgr.Processor

/-! One request to the Xconf server: its URL, the hash and time sent with it, what
`DownloadRuntimeFeatutres` does with the reply, and the nested request of `ProcessXconfUrl`. -/

namespace RfcMgr

def varFile : Str := "rfcVariable.ini".toList
def tr181FileList : Str := "tr181.list".toList
def featureFileList : Str := "rfcFeature.list".toList
def versionFile : Str := ".version".toList
def tr181StoreFile : Str := "tr181store.ini".toList
def bsStoreFilename : Str := "bootstrap.ini".toList

/-- `.RFC_<name>.ini`. -/
def featureFile (name : Str) : Str := ".RFC_".toList ++ name ++ ".ini".toList

namespace Device

/-- `unlink` or `std::remove`. -/
def remove (dev : Device) (filename : Str) : Device :=
  { dev with files := Function.update dev.files filename none }

/-- The files whose name starts with `.RFC_`, and the variable file. -/
def cleanAllFile (dev : Device) : Device :=
  { dev with files := fun filename =>
      if ".RFC_".toList.isPrefixOf filename = true ∨ filename = varFile then none
      else dev.files filename }

/-- `std::ofstream` with `std::ios::app`. A name with a slash is a path into a directory that does
not exist, so it does not open. -/
def append (dev : Device) (filename data : Str) : Device :=
  if '/' ∈ filename then dev
  else { dev with files :=
    Function.update dev.files filename (some ((dev.files filename).getD [] ++ data)) }

/-- `std::ofstream` without it. -/
def overwrite (dev : Device) (filename data : Str) : Device :=
  { dev with files := Function.update dev.files filename (some data) }

@[simp] theorem remove_files_self (dev : Device) (filename : Str) :
    (dev.remove filename).files filename = none := Function.update_self ..

theorem remove_files_of_ne {dev : Device} {filename other : Str} (h : other ≠ filename) :
    (dev.remove filename).files other = dev.files other := Function.update_of_ne h ..

theorem cleanAllFile_files {dev : Device} {filename : Str}
    (h : ".RFC_".toList.isPrefixOf filename = true ∨ filename = varFile) :
    dev.cleanAllFile.files filename = none := if_pos h

theorem append_files_self {dev : Device} {filename : Str} (h : '/' ∉ filename) (data : Str) :
    (dev.append filename data).files filename = some ((dev.files filename).getD [] ++ data) := by
  rw [append, if_neg h]
  exact Function.update_self ..

theorem append_files_of_ne {dev : Device} {filename other : Str} (h : other ≠ filename) (data : Str) :
    (dev.append filename data).files other = dev.files other := by
  unfold append
  split
  · rfl
  · exact Function.update_of_ne h ..

end Device

namespace St

def onDev (st : St) (f : Device → Device) : St := { st with dev := f st.dev }
def onProc (st : St) (f : Processor → Processor) : St := { st with proc := f st.proc }

@[simp] theorem onDev_proc (st : St) (f : Device → Device) : (st.onDev f).proc = st.proc := rfl
@[simp] theorem onDev_events (st : St) (f : Device → Device) : (st.onDev f).events = st.events := rfl
@[simp] theorem onDev_dev (st : St) (f : Device → Device) : (st.onDev f).dev = f st.dev := rfl
@[simp] theorem onProc_dev (st : St) (f : Processor → Processor) : (st.onProc f).dev = st.dev := rfl
@[simp] theorem onProc_events (st : St) (f : Processor → Processor) :
    (st.onProc f).events = st.events := rfl
@[simp] theorem onProc_proc (st : St) (f : Processor → Processor) :
    (st.onProc f).proc = f st.proc := rfl

end St

/-- `EncodeString`; a value whose encoding fails is left out. -/
def encodeString (env : Env) (key value appender : Str) : Str :=
  key ++ (if value = [] then [] else (env.urlEncodeString value).getD []) ++ appender

def createXconfHTTPUrl (env : Env) (p : Processor) : Str :=
  p.xconfServerUrl ++ "?".toList ++
    encodeString env "estbMacAddress=".toList p.estbMacAddress "&".toList ++
    encodeString env "firmwareVersion=".toList p.firmwareVersion "&".toList ++
    encodeString env "env=".toList p.buildTypeStr "&".toList ++
    encodeString env "model=".toList p.modelNumber "&".toList ++
    encodeString env "manufacturer=".toList p.manufacturer "&".toList ++
    "controllerId=2504&".toList ++ "channelMapId=2345&".toList ++ "VodId=15660&".toList ++
    encodeString env "partnerId=".toList p.partnerId "&".toList ++
    encodeString env "osClass=".toList p.osclass "&".toList ++
    encodeString env "accountId=".toList p.accountId "&".toList ++
    encodeString env "Experience=".toList p.experience "&".toList ++
    "version=2".toList

def isXconfSelectorSlotProd (env : Env) (st : St) : Bool × St :=
  let (value, st) := st.read env xconfSelectorKeyStr 1024
  (value == some "prod".toList, st)

/-- Reads the stored hash and time, and keeps the hash as `bkup_hash`. -/
def retrieveHashAndTimeFromPreviousDataSet (env : Env) (st : St) : (Str × Str) × St :=
  let (hash, st) := st.read env rfcConfigSetHash 1024
  let valueHash := hash.getD "UPGRADE_HASH".toList
  let (time, st) := st.read env rfcConfigSetTime 1024
  ((valueHash, time.getD "0".toList), st.onProc fun p => { p with bkupHash := valueHash })

/-- The stored hash and time before the identity is looked at. -/
def storedHashAndTime (env : Env) (st : St) : (Str × Str) × St :=
  if st.proc.lastFirmware = st.proc.firmwareVersion then
    if st.proc.rfcState = .init then
      let (isProd, st) := isXconfSelectorSlotProd env st
      if isProd then retrieveHashAndTimeFromPreviousDataSet env st
      else (("OVERRIDE_HASH".toList, "0".toList), st)
    else retrieveHashAndTimeFromPreviousDataSet env st
  else (("UPGRADE_HASH".toList, "0".toList), st)

def getStoredHashAndTime (env : Env) (st : St) : (Str × Str) × St :=
  let ((valueHash, valueTime), st) := storedHashAndTime env st
  if st.proc.partnerId = unknownStr ∨ st.proc.accountId = unknownStr then
    (("OVERRIDE_HASH".toList, valueTime), st)
  else ((valueHash, valueTime), st)

/-- What the reply of a request that is not a URL validation leads to. -/
def handleReply (x : Exchange) (st : St) : ReturnCode × St :=
  if x.curlRetCode = 0 ∧ x.httpCode = 404 then (.failure, st.onDev Device.cleanAllFile)
  else if x.httpCode = 304 then (.noRfcUpdateRequired, st)
  else if x.curlRetCode ≠ 0 ∨ x.httpCode ≠ 200 then (.failure, st)
  else (.success, st.onDev fun dev => dev.cleanAllFile.remove tr181FileList)

/-- The state once the request is sent and its reply is there. -/
def exchanged (env : Env) (x : Exchange) (url : Str) (st : St) : St :=
  let ((hashValue, valueTime), st) := getStoredHashAndTime env st
  (st.log (.request st.proc.xconfServerUrl (url.take 1023) hashValue valueTime)).log
    (.response x.curlRetCode x.httpCode)

/-- A request that only validates a URL. -/
def validationExchanged (env : Env) (url : Str) (st : St) : St :=
  let (_, st) := getStoredHashAndTime env st
  (st.log (.validationRequest (url.take 1023))).onProc fun p =>
    { p with urlValidationInProgress := false }

/-- `allocated` says that both buffers are there. The URL is copied into a field of 1024 bytes. -/
def downloadRuntimeFeatutres (env : Env) (allocated : Bool) (x : Exchange) (url : Str) (st : St) :
    ReturnCode × St :=
  if x.hashParamAllocated = false ∨ allocated = false then (.failure, st)
  else if st.proc.urlValidationInProgress then
    (if x.httpCode = 304 ∨ x.httpCode = 200 then .success else .failure,
      validationExchanged env url st)
  else handleReply x (exchanged env x url st)

/-- The `do … while` of `ProcessXconfUrl`: up to `tries` validation requests, from the `i`-th on. -/
def validateXconfUrl (env : Env) (allocated : Bool) (url : Str) : Nat → Nat → St → ReturnCode × St
  | 0, _, st => (.failure, st)
  | tries + 1, i, st =>
      let (rc, st) := downloadRuntimeFeatutres env allocated (env.validation i) url
        (st.onProc fun p => { p with urlValidationInProgress := true })
      if rc = .success then (rc, st) else validateXconfUrl env allocated url tries (i + 1) st

/-- When only the second buffer is missing, the first one is freed at once and again at the end. -/
def processXconfUrl (env : Env) (xconfUrl : Str) (st : St) : Exec St ReturnCode :=
  let url := createXconfHTTPUrl env
    { st.proc with xconfServerUrl := xconfUrl ++ "/featureControl/getSettings".toList }
  let allocated := env.validationDwnLocAllocated && env.validationHeaderAllocated
  let (rc, st) := validateXconfUrl env allocated url 2 0 st
  if env.validationDwnLocAllocated && !env.validationHeaderAllocated then .crash st else .ok rc st

/-! ### What a request leaves alone -/

/-- The parameters that are read for a request. -/
def requestKeys : List Str := [xconfSelectorKeyStr, rfcConfigSetHash, rfcConfigSetTime]

/-- `t` differs from `s` in what the reads for a request change: their counters and `bkup_hash`. -/
structure ReadsOnly (s t : St) : Prop where
  proc : ∃ bkupHash, t.proc = { s.proc with bkupHash := bkupHash }
  files : t.dev.files = s.dev.files
  rfcStore : t.dev.rfcStore = s.dev.rfcStore
  events : t.events = s.events
  calls : ∀ key ∉ requestKeys, s.dev.SameCalls key t.dev

theorem ReadsOnly.refl (s : St) : ReadsOnly s s :=
  ⟨⟨s.proc.bkupHash, rfl⟩, rfl, rfl, rfl, fun key _ => .refl key s.dev⟩

theorem ReadsOnly.trans {s t u : St} (hst : ReadsOnly s t) (htu : ReadsOnly t u) : ReadsOnly s u := by
  obtain ⟨b, hb⟩ := hst.proc
  obtain ⟨b', hb'⟩ := htu.proc
  refine ⟨⟨b', ?_⟩, htu.files.trans hst.files, htu.rfcStore.trans hst.rfcStore,
    htu.events.trans hst.events, fun key hkey => (hst.calls key hkey).trans (htu.calls key hkey)⟩
  rw [hb', hb]

theorem readsOnly_read (env : Env) (st : St) {key : Str} (hkey : key ∈ requestKeys)
    (datasize : Nat) : ReadsOnly st (st.read env key datasize).2 := by
  refine ⟨⟨st.proc.bkupHash, rfl⟩, St.read_files .., St.read_rfcStore .., rfl, ?_⟩
  intro other hother
  have hne : other ≠ key := fun h => hother (h ▸ hkey)
  exact .read_of_ne env.hostif st.dev hne datasize

theorem readsOnly_retrieve (env : Env) (st : St) :
    ReadsOnly st (retrieveHashAndTimeFromPreviousDataSet env st).2 := by
  have hhashKey : rfcConfigSetHash ∈ requestKeys := by simp [requestKeys]
  have htimeKey : rfcConfigSetTime ∈ requestKeys := by simp [requestKeys]
  have hhash := readsOnly_read env st hhashKey 1024
  have htime := readsOnly_read env (st.read env rfcConfigSetHash 1024).2 htimeKey 1024
  have hboth := hhash.trans htime
  exact ⟨⟨_, rfl⟩, hboth.files, hboth.rfcStore, hboth.events, hboth.calls⟩

theorem readsOnly_storedHashAndTime (env : Env) (st : St) :
    ReadsOnly st (storedHashAndTime env st).2 := by
  simp only [storedHashAndTime]
  split
  · split
    · have hselector : xconfSelectorKeyStr ∈ requestKeys := by simp [requestKeys]
      have hprod : ReadsOnly st (isXconfSelectorSlotProd env st).2 :=
        readsOnly_read env st hselector 1024
      split
      · exact hprod.trans (readsOnly_retrieve env _)
      · exact hprod
    · exact readsOnly_retrieve env st
  · exact .refl st

theorem readsOnly_getStoredHashAndTime (env : Env) (st : St) :
    ReadsOnly st (getStoredHashAndTime env st).2 := by
  have h := readsOnly_storedHashAndTime env st
  simp only [getStoredHashAndTime]
  split
  · exact h
  · exact h

/-- What a request and its reply change before the reply is looked at. -/
theorem exchanged_spec (env : Env) (x : Exchange) (url : Str) (st : St) :
    ∃ bkupHash hashValue valueTime dev,
      exchanged env x url st =
        ⟨{ st.proc with bkupHash := bkupHash }, dev, st.events ++
          [.request st.proc.xconfServerUrl (url.take 1023) hashValue valueTime,
            .response x.curlRetCode x.httpCode]⟩ ∧
      dev.files = st.dev.files ∧ dev.rfcStore = st.dev.rfcStore := by
  have h := readsOnly_getStoredHashAndTime env st
  obtain ⟨bkupHash, hproc⟩ := h.proc
  refine ⟨bkupHash, (getStoredHashAndTime env st).1.1, (getStoredHashAndTime env st).1.2,
    (getStoredHashAndTime env st).2.dev, ?_, h.files, h.rfcStore⟩
  simp only [exchanged, St.log, h.events, hproc, List.append_assoc, List.cons_append, List.nil_append]

/-- The files the replies of Xconf erase: the variable file, the markers and the parameter list. -/
def Tracked (filename : Str) : Prop :=
  ".RFC_".toList.isPrefixOf filename = true ∨ filename = varFile ∨ filename = tr181FileList

instance (filename : Str) : Decidable (Tracked filename) :=
  inferInstanceAs (Decidable (_ ∨ _ ∨ _))

/-- `t` differs from `s` in what URL validation changes. -/
structure Validates (s t : St) : Prop where
  proc : ∃ bkupHash flag,
    t.proc = { s.proc with bkupHash := bkupHash, urlValidationInProgress := flag }
  files : t.dev.files = s.dev.files
  rfcStore : t.dev.rfcStore = s.dev.rfcStore
  calls : ∀ key ∉ requestKeys, s.dev.SameCalls key t.dev
  events : ∃ es, t.events = s.events ++ es ∧ ∀ e ∈ es, ∃ url, e = .validationRequest url

theorem Validates.refl (s : St) : Validates s s :=
  ⟨⟨s.proc.bkupHash, s.proc.urlValidationInProgress, rfl⟩, rfl, rfl, fun key _ => .refl key s.dev, [],
    (List.append_nil _).symm, fun _ he => absurd he List.not_mem_nil⟩

theorem Validates.trans {s t u : St} (hst : Validates s t) (htu : Validates t u) : Validates s u := by
  obtain ⟨b, v, hproc⟩ := hst.proc
  obtain ⟨b', v', hproc'⟩ := htu.proc
  obtain ⟨es, hes, hall⟩ := hst.events
  obtain ⟨es', hes', hall'⟩ := htu.events
  refine ⟨⟨b', v', ?_⟩, htu.files.trans hst.files, htu.rfcStore.trans hst.rfcStore, ?_, es ++ es', ?_,
    ?_⟩
  · rw [hproc', hproc]
  · exact fun key hkey => (hst.calls key hkey).trans (htu.calls key hkey)
  · rw [hes', hes, List.append_assoc]
  · intro e he
    exact (List.mem_append.mp he).elim (hall e) (hall' e)

theorem validates_setFlag (st : St) (flag : Bool) :
    Validates st (st.onProc fun p => { p with urlValidationInProgress := flag }) :=
  ⟨⟨st.proc.bkupHash, flag, rfl⟩, rfl, rfl, fun key _ => .refl key st.dev, [],
    (List.append_nil _).symm, fun _ he => absurd he List.not_mem_nil⟩

theorem validates_validationExchanged (env : Env) (url : Str) (st : St) :
    Validates st (validationExchanged env url st) := by
  have h := readsOnly_getStoredHashAndTime env st
  obtain ⟨b, hproc⟩ := h.proc
  refine ⟨⟨b, false, ?_⟩, h.files, h.rfcStore, h.calls, [.validationRequest (url.take 1023)], ?_, ?_⟩
  · simp only [validationExchanged, St.onProc_proc, St.log_proc, hproc]
  · simp only [validationExchanged, St.onProc_events, St.log_events, h.events]
  · intro e he
    exact ⟨_, List.mem_singleton.mp he⟩

theorem validates_validateXconfUrl (env : Env) (allocated : Bool) (url : Str) (tries i : Nat)
    (st : St) : Validates st (validateXconfUrl env allocated url tries i st).2 := by
  induction tries generalizing i st with
  | zero => exact .refl st
  | succ tries ih =>
      have hflag := validates_setFlag st true
      have hdown : Validates st (downloadRuntimeFeatutres env allocated (env.validation i) url
          (st.onProc fun p => { p with urlValidationInProgress := true })).2 := by
        simp only [downloadRuntimeFeatutres, St.onProc_proc, if_true]
        split
        · exact hflag
        · exact hflag.trans (validates_validationExchanged env url _)
      simp only [validateXconfUrl]
      split
      · exact hdown
      · exact hdown.trans (ih (i + 1) _)

/-- **The nested request touches no file and no parameter**, and asks for those of a request only. -/
theorem validates_processXconfUrl (env : Env) (xconfUrl : Str) (st : St) :
    Validates st (processXconfUrl env xconfUrl st).state := by
  simp only [processXconfUrl]
  split
  · exact validates_validateXconfUrl ..
  · exact validates_validateXconfUrl ..

end RfcMgr
