import RfcMgr.Apply

/-! What the apply step leaves alone: of the processor, of the files, and of the trace, to which it
only adds events of its own. -/

namespace RfcMgr

/-- The events of the loop over the parameters: no value but the one a parameter has in `pairs` is
written for it. -/
def Event.OfLoop (pairs : List (Str × Str)) : Event → Prop
  | .validationRequest _ => True
  | .param key value decision =>
      (key, value) ∈ pairs ∧ ∀ written, decision.written = some written → written = value
  | _ => False

/-- The events of `processXconfResponseConfigDataPart`, started with the parameter map `map`. -/
def Event.OfPart (map : ConfigMap) (body : Body) : Event → Prop
  | .validationRequest _ => True
  | .param key value decision =>
      ∃ features filled, body.features = some features ∧
        createConfigDataValueMap features map = some filled ∧
        Event.OfLoop filled.toList (.param key value decision)
  | .fill proc _ => proc.rfcKeyAndValueMap = map
  | _ => False

/-- The events behind the `apply` of an apply step and of what is stored after it. -/
def Event.OfApply (map : ConfigMap) (body : Body) (e : Event) : Prop :=
  e.OfPart map body ∨ (∃ dev, e = .applied body dev) ∨ ∃ selector url, e = .stored selector url

theorem Event.OfLoop.ofPart {map filled : ConfigMap} {body : Body} {features : List Json} {e : Event}
    (hfeatures : body.features = some features)
    (hfilled : createConfigDataValueMap features map = some filled) (h : e.OfLoop filled.toList) :
    e.OfPart map body := by
  cases e with
  | validationRequest => trivial
  | param => exact ⟨features, filled, hfeatures, hfilled, h⟩
  | request | response | preProcessed | apply | fill | applied | stored => exact h.elim

theorem Event.OfPart.not_applied {map : ConfigMap} {body body' : Body} {dev : Device} :
    ¬ (Event.applied body' dev).OfPart map body := id

/-- The trace grows by events that satisfy `P`. -/
def Grows (P : Event → Prop) (s t : St) : Prop := ∃ es, t.events = s.events ++ es ∧ ∀ e ∈ es, P e

theorem Grows.refl {P : Event → Prop} (s : St) : Grows P s s :=
  ⟨[], (List.append_nil _).symm, fun _ he => absurd he List.not_mem_nil⟩

theorem Grows.of_eq {P : Event → Prop} {s t : St} (h : t.events = s.events) : Grows P s t :=
  ⟨[], by rw [h, List.append_nil], fun _ he => absurd he List.not_mem_nil⟩

theorem Grows.log {P : Event → Prop} (s : St) {e : Event} (he : P e) : Grows P s (s.log e) :=
  ⟨[e], rfl, fun _ h => by rwa [List.mem_singleton.mp h]⟩

theorem Grows.trans {P : Event → Prop} {s t u : St} (hst : Grows P s t) (htu : Grows P t u) :
    Grows P s u := by
  obtain ⟨es, hes, hall⟩ := hst
  obtain ⟨es', hes', hall'⟩ := htu
  refine ⟨es ++ es', ?_, ?_⟩
  · rw [hes', hes, List.append_assoc]
  · intro e he
    exact (List.mem_append.mp he).elim (hall e) (hall' e)

theorem Grows.imp {P Q : Event → Prop} (hPQ : ∀ e, P e → Q e) {s t : St} (h : Grows P s t) :
    Grows Q s t := by
  obtain ⟨es, hes, hall⟩ := h
  exact ⟨es, hes, fun e he => hPQ e (hall e he)⟩

/-- An event of another kind was there before. -/
theorem Grows.mem_of_not {P : Event → Prop} {s t : St} (h : Grows P s t) {e : Event} (hP : ¬ P e)
    (hmem : e ∈ t.events) : e ∈ s.events := by
  obtain ⟨es, hes, hall⟩ := h
  rw [hes] at hmem
  rcases List.mem_append.mp hmem with hmem | hmem
  · exact hmem
  · exact absurd (hall e hmem) hP

/-! ### The loop over the parameters -/

/-- `t` differs from `s` in what a pass over a parameter changes; the RFC store is left open. -/
structure LoopFrame (pairs : List (Str × Str)) (s t : St) : Prop where
  proc : ∃ bkupHash flag reboot, t.proc = { s.proc with
    bkupHash := bkupHash, urlValidationInProgress := flag, isRebootRequired := reboot }
  files : t.dev.files = s.dev.files
  events : Grows (Event.OfLoop pairs) s t

theorem LoopFrame.refl {pairs : List (Str × Str)} (s : St) : LoopFrame pairs s s :=
  ⟨⟨s.proc.bkupHash, s.proc.urlValidationInProgress, s.proc.isRebootRequired, rfl⟩, rfl, .refl s⟩

theorem LoopFrame.trans {pairs : List (Str × Str)} {s t u : St} (hst : LoopFrame pairs s t)
    (htu : LoopFrame pairs t u) : LoopFrame pairs s u := by
  obtain ⟨b, v, r, hproc⟩ := hst.proc
  obtain ⟨b', v', r', hproc'⟩ := htu.proc
  refine ⟨⟨b', v', r', ?_⟩, htu.files.trans hst.files, hst.events.trans htu.events⟩
  rw [hproc', hproc]

theorem LoopFrame.log {pairs : List (Str × Str)} {s t : St} (h : LoopFrame pairs s t) {e : Event}
    (he : e.OfLoop pairs) : LoopFrame pairs s (t.log e) :=
  ⟨h.proc, h.files, h.events.trans (.log t he)⟩

theorem LoopFrame.skipped {pairs : List (Str × Str)} {s t : St} (h : LoopFrame pairs s t)
    {pair : Str × Str} (hpair : pair ∈ pairs) :
    LoopFrame pairs s (t.log (.param pair.1 pair.2 RfcMgr.skipped)) := by
  refine h.log ⟨hpair, ?_⟩
  intro written hwritten
  cases hwritten

theorem loopFrame_read (env : Env) (pairs : List (Str × Str)) (st : St) (key : Str)
    (datasize : Nat) : LoopFrame pairs st (st.read env key datasize).2 :=
  ⟨⟨st.proc.bkupHash, st.proc.urlValidationInProgress, st.proc.isRebootRequired, rfl⟩,
    St.read_files .., .of_eq rfl⟩

theorem loopFrame_isConfigValueChange (env : Env) (pairs : List (Str × Str))
    (key value currentValue : Str) (st : St) :
    LoopFrame pairs st (isConfigValueChange env key value currentValue st).2 := by
  have hread := loopFrame_read env pairs st key 4096
  simp only [isConfigValueChange]
  split <;> rename_i hvalue
  · simpa only [hvalue] using hread
  · simpa only [hvalue] using hread

/-- A value that is to be set is the one of the response. -/
theorem checkAgainst_value {is_Bootstrap : Bool} {key value currentValue : Str}
    (h : (checkAgainst is_Bootstrap key value currentValue).changed = true) :
    (checkAgainst is_Bootstrap key value currentValue).value = value := by
  unfold checkAgainst at h ⊢
  split
  · rfl
  next hinside =>
    rw [if_neg hinside] at h
    split
    next hunknown =>
      rw [if_pos hunknown] at h
      cases h
    · rfl

theorem isConfigValueChange_value (env : Env) (key value currentValue : Str) (st : St)
    (h : (isConfigValueChange env key value currentValue st).1.changed = true) :
    (isConfigValueChange env key value currentValue st).1.value = value := by
  simp only [isConfigValueChange] at h ⊢
  split
  · rfl
  next hread =>
    rw [hread] at h
    exact checkAgainst_value h

theorem loopFrame_setParam (env : Env) (pairs : List (Str × Str)) (key newValue currentValue : Str)
    (st : St) : LoopFrame pairs st (setParam env key newValue currentValue st).2 :=
  ⟨⟨st.proc.bkupHash, st.proc.urlValidationInProgress, _, rfl⟩, St.set_files .., .of_eq rfl⟩

theorem Validates.loopFrame {s t : St} (h : Validates s t) (pairs : List (Str × Str)) :
    LoopFrame pairs s t := by
  obtain ⟨b, v, hproc⟩ := h.proc
  obtain ⟨es, hes, hall⟩ := h.events
  refine ⟨⟨b, v, s.proc.isRebootRequired, hproc⟩, h.files, es, hes, ?_⟩
  intro e he
  obtain ⟨url, rfl⟩ := hall e he
  trivial

theorem loopFrame_applyParam (env : Env) {pairs : List (Str × Str)} {pair : Str × Str}
    (hpair : pair ∈ pairs) (vars : ApplyVars) (st : St) :
    LoopFrame pairs st (applyParam env pair vars st).state := by
  have hcheck := loopFrame_isConfigValueChange env pairs pair.1 pair.2 vars.currentValue st
  have hvalue := isConfigValueChange_value env pair.1 pair.2 vars.currentValue st
  simp only [applyParam]
  generalize isConfigValueChange env pair.1 pair.2 vars.currentValue st = result at hcheck hvalue ⊢
  obtain ⟨check, st'⟩ := result
  split
  · exact hcheck.skipped hpair
  next hchanged =>
    split
    · exact hcheck.skipped hpair
    · refine Exec.state_bind (P := LoopFrame pairs st) ?_ ?_
      · split
        · exact hcheck.trans ((validates_processXconfUrl env check.value st').loopFrame pairs)
        · exact hcheck
      · intro rc st'' _ hvalidated
        split
        · exact hvalidated.skipped hpair
        · refine (hvalidated.trans (loopFrame_setParam ..)).log ⟨hpair, ?_⟩
          rintro written ⟨⟩
          exact hvalue (Bool.not_eq_false _ |>.mp hchanged)

theorem loopFrame_applyParams (env : Env) (pairs : List (Str × Str)) (vars : ApplyVars) (st : St) :
    LoopFrame pairs st (Exec.forList (applyParam env) pairs vars st).state :=
  Exec.forList_state LoopFrame.refl (fun _ _ _ => .trans)
    (fun _ hpair vars st => loopFrame_applyParam env hpair vars st) vars st

/-! ### Clearing the store -/

/-- `t` differs from `s` in what `clearDB` changes; the RFC store is left open. -/
structure ClearFrame (s t : St) : Prop where
  proc : ∃ accountId stashAccountId, t.proc = { s.proc with
    accountId := accountId, stashAccountId := stashAccountId }
  files : t.dev.files = Function.update s.dev.files tr181StoreFile (some [])
  events : t.events = s.events

theorem getAccountID_frame (env : Env) (st : St) :
    (∃ accountId, (getAccountID env st).proc = { st.proc with accountId := accountId }) ∧
      (getAccountID env st).dev = (st.read env rfcAccountIdKeyStr 1024).2.dev ∧
      (getAccountID env st).events = st.events := by
  unfold getAccountID
  have hread := St.read_events env st rfcAccountIdKeyStr 1024
  have hproc := St.read_proc env st rfcAccountIdKeyStr 1024
  split
  next st' hvalue =>
    rw [hvalue] at hread hproc ⊢
    exact ⟨⟨st.proc.accountId, hproc⟩, rfl, hread⟩
  next tempbuf st' hvalue =>
    rw [hvalue] at hread hproc ⊢
    refine ⟨⟨if tempbuf = [] ∨ st.proc.lastFirmware ≠ st.proc.firmwareVersion then unknownStr
      else tempbuf, ?_⟩, rfl, hread⟩
    rw [St.onProc_proc, show st'.proc = st.proc from hproc]

theorem rfcStashRetrieveParams_frame (env : Env) (st : St) :
    (∃ accountId, (rfcStashRetrieveParams env st).proc = { st.proc with accountId := accountId }) ∧
      (rfcStashRetrieveParams env st).dev.files = st.dev.files ∧
      (rfcStashRetrieveParams env st).events = st.events := by
  have hproc := St.set_proc env st rfcAccountIdKeyStr st.proc.stashAccountId
  have hfiles := St.set_files env st rfcAccountIdKeyStr st.proc.stashAccountId
  have hevents := St.set_events env st rfcAccountIdKeyStr st.proc.stashAccountId
  unfold rfcStashRetrieveParams
  split
  · split
    next st' hset =>
      rw [hset] at hproc hfiles hevents
      refine ⟨⟨st.proc.stashAccountId, ?_⟩, hfiles, hevents⟩
      rw [St.onProc_proc, show st'.proc = st.proc from hproc]
    next hset =>
      rw [hset] at hproc hfiles hevents
      exact ⟨⟨st.proc.accountId, hproc⟩, hfiles, hevents⟩
  · exact ⟨⟨st.proc.accountId, rfl⟩, rfl, rfl⟩

theorem clearFrame_clearDB (env : Env) (st : St) : ClearFrame st (clearDB env st) := by
  obtain ⟨⟨account, haccount⟩, hdev, hevents⟩ := getAccountID_frame env st
  simp only [clearDB]
  generalize hmid : (St.set env (St.set env (St.set env ((rfcStashStoreParams env st).onDev
    fun dev => dev.overwrite tr181StoreFile []) clearDBKey clearValue).2 bootstrapClearDBKey
      clearValue).2 configChangeTimeKey env.configChangeTime).2 = mid
  have hmidProc : mid.proc = { st.proc with accountId := account, stashAccountId := account } := by
    simp only [← hmid, St.set_proc, St.onDev_proc, rfcStashStoreParams, St.onProc_proc, haccount]
  have hmidFiles : mid.dev.files = Function.update st.dev.files tr181StoreFile (some []) := by
    simp only [← hmid, St.set_files, St.onDev_dev, rfcStashStoreParams, St.onProc_dev,
      Device.overwrite, hdev, St.read_files]
  have hmidEvents : mid.events = st.events := by
    simp only [← hmid, St.set_events, St.onDev_events, rfcStashStoreParams, St.onProc_events, hevents]
  obtain ⟨⟨account', haccount'⟩, hfiles', hevents'⟩ := rfcStashRetrieveParams_frame env mid
  refine ⟨⟨account', account, ?_⟩, hfiles'.trans hmidFiles, hevents'.trans hmidEvents⟩
  rw [haccount', hmidProc]

theorem clearDBEnd_proc (env : Env) (st : St) : (clearDBEnd env st).proc = st.proc := rfl
theorem clearDBEnd_files (env : Env) (st : St) : (clearDBEnd env st).dev.files = st.dev.files := by
  simp only [clearDBEnd, St.set_files]

/-! ### The apply step -/

/-- `t` differs from `s` in what an apply step changes, with events that satisfy `P`; files and RFC
store are left open. -/
structure ApplyFrame (P : Event → Prop) (s t : St) : Prop where
  proc : ∃ bkupHash flag reboot accountId stashAccountId map', t.proc = { s.proc with
    bkupHash := bkupHash, urlValidationInProgress := flag, isRebootRequired := reboot
    accountId := accountId, stashAccountId := stashAccountId, rfcKeyAndValueMap := map' }
  events : Grows P s t

section ApplyStep

variable {P Q : Event → Prop} {map : ConfigMap} {body : Body} {s t u : St}

theorem ApplyFrame.refl (s : St) : ApplyFrame P s s :=
  ⟨⟨s.proc.bkupHash, s.proc.urlValidationInProgress, s.proc.isRebootRequired, s.proc.accountId,
    s.proc.stashAccountId, s.proc.rfcKeyAndValueMap, rfl⟩, .refl s⟩

theorem ApplyFrame.trans (hst : ApplyFrame P s t) (htu : ApplyFrame P t u) : ApplyFrame P s u := by
  obtain ⟨_, _, _, _, _, _, hproc⟩ := hst.proc
  obtain ⟨b, v, r, a, stash, map', hproc'⟩ := htu.proc
  refine ⟨⟨b, v, r, a, stash, map', ?_⟩, hst.events.trans htu.events⟩
  rw [hproc', hproc]

theorem ApplyFrame.imp (hPQ : ∀ e, P e → Q e) (h : ApplyFrame P s t) : ApplyFrame Q s t :=
  ⟨h.proc, h.events.imp hPQ⟩

/-- A step that keeps the processor. -/
theorem ApplyFrame.of_proc_eq (hproc : t.proc = s.proc) (hevents : Grows P s t) :
    ApplyFrame P s t :=
  ⟨⟨s.proc.bkupHash, s.proc.urlValidationInProgress, s.proc.isRebootRequired, s.proc.accountId,
    s.proc.stashAccountId, s.proc.rfcKeyAndValueMap, hproc⟩, hevents⟩

theorem ApplyFrame.withDev (s : St) (dev : Device) : ApplyFrame P s { s with dev := dev } :=
  .of_proc_eq rfl (.of_eq rfl)

theorem ClearFrame.applyFrame (h : ClearFrame s t) : ApplyFrame P s t := by
  obtain ⟨a, stash, hproc⟩ := h.proc
  exact ⟨⟨_, _, _, a, stash, _, hproc⟩, .of_eq h.events⟩

theorem LoopFrame.applyFrame {filled : ConfigMap} {features : List Json}
    (hfeatures : body.features = some features)
    (hfilled : createConfigDataValueMap features map = some filled)
    (h : LoopFrame filled.toList s t) : ApplyFrame (Event.OfPart map body) s t := by
  obtain ⟨b, v, r, hproc⟩ := h.proc
  exact ⟨⟨b, v, r, _, _, _, hproc⟩, h.events.imp fun _ => Event.OfLoop.ofPart hfeatures hfilled⟩

/-- The state in which the store is cleared and the loop starts. -/
def filled (map : ConfigMap) (st : St) : St :=
  (st.log (.fill st.proc st.dev)).onProc fun p => { p with rfcKeyAndValueMap := map }

/-- What follows the loop. -/
def loopDone (env : Env) (vars : ApplyVars) (st : St) : St :=
  clearDBEnd env (st.onDev (updateTR181File vars.paramList))

theorem configDataPart_eq {env : Env} {features : List Json} {filledMap : ConfigMap} {st : St}
    (hfilled : createConfigDataValueMap features st.proc.rfcKeyAndValueMap = some filledMap) :
    processXconfResponseConfigDataPart env features st =
      if filledMap.isEmpty then .ok () (filled filledMap st)
      else (Exec.forList (applyParam env) filledMap.toList ⟨[], []⟩
        (clearDB env (filled filledMap st))).bind fun vars st => .ok () (loopDone env vars st) := by
  simp only [processXconfResponseConfigDataPart, St.log_proc, hfilled]
  rfl

theorem applyFrame_configDataPart (env : Env) {features : List Json}
    (hfeatures : body.features = some features) (st : St) :
    ApplyFrame (Event.OfPart st.proc.rfcKeyAndValueMap body) st
      (processXconfResponseConfigDataPart env features st).state := by
  have hfill : ApplyFrame (Event.OfPart st.proc.rfcKeyAndValueMap body) st
      (st.log (.fill st.proc st.dev)) := .of_proc_eq rfl (.log st rfl)
  simp only [processXconfResponseConfigDataPart]
  split
  · exact hfill
  next filled hfilled =>
    have hmap : ApplyFrame (Event.OfPart st.proc.rfcKeyAndValueMap body) st
        ((st.log (.fill st.proc st.dev)).onProc fun p =>
          { p with rfcKeyAndValueMap := filled }) :=
      hfill.trans ⟨⟨_, _, _, _, _, filled, rfl⟩, .of_eq rfl⟩
    split
    · exact hmap
    · refine Exec.state_bind (P := ApplyFrame (Event.OfPart st.proc.rfcKeyAndValueMap body) st) ?_ ?_
      · exact (hmap.trans (clearFrame_clearDB env _).applyFrame).trans
          ((loopFrame_applyParams ..).applyFrame hfeatures hfilled)
      · intro vars st' _ hloop
        exact hloop.trans (.of_proc_eq rfl (.of_eq rfl))

/-- Behind its start the step only logs what its loop does. -/
theorem grows_configDataPart (env : Env) (features : List Json) (st : St) :
    Grows (fun e => ∃ pairs, e.OfLoop pairs) (st.log (.fill st.proc st.dev))
      (processXconfResponseConfigDataPart env features st).state := by
  cases hfilled : createConfigDataValueMap features st.proc.rfcKeyAndValueMap with
  | none =>
      simp only [processXconfResponseConfigDataPart, St.log_proc, hfilled]
      exact .refl _
  | some filledMap =>
      have hstart : Grows (fun e => ∃ pairs, e.OfLoop pairs) (st.log (.fill st.proc st.dev))
          (clearDB env (filled filledMap st)) := .of_eq (clearFrame_clearDB env _).events
      rw [configDataPart_eq hfilled]
      split
      · exact .of_eq rfl
      · apply Exec.state_bind (P := Grows (fun e => ∃ pairs, e.OfLoop pairs)
          (st.log (.fill st.proc st.dev)))
        · exact hstart.trans ((loopFrame_applyParams ..).events.imp fun e he => ⟨_, he⟩)
        · exact fun vars s _ hs => hs.trans (.of_eq rfl)

/-- The state in which `processXconfResponseConfigDataPart` starts, behind the files of the features. -/
def featuresWritten (features : List Json) (body : Body) (st : St) : St :=
  { st.log (.apply body) with dev := (writeFeatures features [] st.dev).2 }

theorem applyFrame_featuresWritten (env : Env) {features : List Json}
    (hfeatures : body.features = some features) (st : St) :
    ApplyFrame (Event.OfPart st.proc.rfcKeyAndValueMap body) (st.log (.apply body))
      (processXconfResponseConfigDataPart env features (featuresWritten features body st)).state :=
  (ApplyFrame.withDev (st.log (.apply body)) (writeFeatures features [] st.dev).2).trans
    (applyFrame_configDataPart env hfeatures (featuresWritten features body st))

end ApplyStep

/-- The feature list and the version file are written. -/
def featuresListed (features : List Json) (dev : Device) (st : St) : Device :=
  writeFile versionFile st.proc.firmwareVersion
    (writeFile featureFileList (writeFeatures features [] dev).1 st.dev)

/-- **What an apply step can do.** -/
inductive ApplyStep (env : Env) (body : Body) (st : St) : Exec St ReturnCode → Prop where
  | rejected (hfeatures : body.features = none) :
      ApplyStep env body st (.ok .failure (st.log (.apply body)))
  | crashed {features : List Json} {t : St} (hfeatures : body.features = some features)
      (hpart : processXconfResponseConfigDataPart env features (featuresWritten features body st) =
        .crash t) :
      ApplyStep env body st (.crash t)
  | applied {features : List Json} {t : St} (hfeatures : body.features = some features)
      (hpart : processXconfResponseConfigDataPart env features (featuresWritten features body st) =
        .ok () t) :
      ApplyStep env body st (.ok .success
        ((t.onDev fun _ => featuresListed features st.dev t).log
          (.applied body (featuresListed features st.dev t))))

theorem processJsonResponse_step (env : Env) (body : Body) (st : St) :
    ApplyStep env body st (processJsonResponse env body st) := by
  simp only [processJsonResponse]
  split
  next hfeatures => exact .rejected hfeatures
  next features hfeatures =>
    change ApplyStep env body st ((processXconfResponseConfigDataPart env features
      (featuresWritten features body st)).bind _)
    cases hpart : processXconfResponseConfigDataPart env features (featuresWritten features body st) with
    | ok _ t => exact .applied hfeatures hpart
    | crash t => exact .crashed hfeatures hpart

/-- The trace of an apply step: its start, then only its own events. -/
theorem applyFrame_processJsonResponse (env : Env) (body : Body) (st : St) :
    ApplyFrame (Event.OfApply st.proc.rfcKeyAndValueMap body) (st.log (.apply body))
      (processJsonResponse env body st).state := by
  have hpart : ∀ features, body.features = some features →
      ApplyFrame (Event.OfApply st.proc.rfcKeyAndValueMap body) (st.log (.apply body))
        (processXconfResponseConfigDataPart env features (featuresWritten features body st)).state :=
    fun _ hfeatures => (applyFrame_featuresWritten env hfeatures st).imp fun _ => .inl
  have hstep := processJsonResponse_step env body st
  generalize processJsonResponse env body st = out at hstep ⊢
  cases hstep with
  | rejected => exact .refl _
  | crashed hfeatures hcrash =>
      have hframe := hpart _ hfeatures
      rwa [hcrash] at hframe
  | applied hfeatures hdone =>
      have hframe := hpart _ hfeatures
      rw [hdone] at hframe
      exact hframe.trans (.of_proc_eq rfl (.log _ (.inr (.inl ⟨_, rfl⟩))))

/-- A successful apply step is in the trace, with the device it leaves. -/
theorem applied_mem_of_success {env : Env} {body : Body} {st t : St}
    (h : processJsonResponse env body st = .ok .success t) : .applied body t.dev ∈ t.events := by
  have hstep := processJsonResponse_step env body st
  rw [h] at hstep
  cases hstep with
  | applied => exact List.mem_append_right _ (List.mem_singleton.mpr rfl)

end RfcMgr
