import RfcMgr.ResponseB

/-! The parameters that the RDKB build does not apply: two of them while `WanFailOverSupport` is enabled,
and one while `WanUnification` is. `ParseConfigValue` leaves them out, however they are spelled; the
second pass over the same features sets them. -/

namespace RfcMgr.Rdkb

open CallHistory

/-- The value of a switch parameter that `ParseConfigValue` takes for enabled. -/
def isOn : Option RbusValue → Prop
  | some (.boolean value) => value = true
  | some (.string text) => text = some trueText
  | _ => False

/-- Asked at any point on the way to `calls`, the bus says that the switch is on. -/
def EnabledThroughout (env : Env) (switch : Str) (calls : List RbusCall) : Prop :=
  Throughout (fun history => isOn (env.rbusGet history switch)) calls

/-- The calls that are made while a response is processed. -/
def responseCalls (env : Env) (body : Body) (proc : Processor) : List RbusCall :=
  (processJsonResponseB env body ⟨proc, [], false⟩).state.calls

/-- Processing a response sets no parameter that is not to be applied in the state of the device. -/
structure Suppressed (env : Env) (body : Body) (proc : Processor) : Prop where
  wanFailOver : EnabledThroughout env wanFailOverSupportKey (responseCalls env body proc) →
    ∀ key ∈ [uPnPRefactorKey, xupnpKey], ¬ Made (RbusCall.Sets key) (responseCalls env body proc)
  wanUnification : EnabledThroughout env wanUnificationKey (responseCalls env body proc) →
    ¬ Made (RbusCall.Sets selectedOperationalModeKey) (responseCalls env body proc)

/-- The second pass over `features` starts in `t`. -/
def SecondPassFrom (env : Env) (body : Body) (proc : Processor) (features : List Json) (t : St) : Prop :=
  env.rbusOpen [] = true ∧ ∃ pJson rfcRebootCronNeeded s, body = some pJson ∧
    features = (getRuntimeFeatureControlJSON pJson).getD [] ∧
    Exec.forList (parseFeature env) features false
      (setInitial env (St.call ⟨proc, [], false⟩ .rbusOpen)) = .ok rfcRebootCronNeeded s ∧
    t = setClearDBEnd env s

/-- In the second pass started in `t`, the turn of `key` starts in `s` with `vars`. -/
def Visits (env : Env) (features : List Json) (t : St) (key value : Str) (vars : ApplyVars) (s : St) :
    Prop :=
  ∃ map, createConfigDataValueMap features t.proc.rfcKeyAndValueMap = some map ∧
    Exec.Reaches (applyParam env) map.toList ⟨[], []⟩ (withMap map t) (key, value) vars s

/-- The turn of `key` that starts in `s` sends a set: the value counts as changed, the bus opens, and the
parameter has a type that the value converts to. -/
def Writes (env : Env) (key value : Str) (vars : ApplyVars) (s : St) : Prop :=
  (isConfigValueChange env key value vars.currentValue s).1.1 = true ∧
    Sends env key value (isConfigValueChange env key value vars.currentValue s).2

/-- The second pass sets `key`. -/
def WrittenAgain (env : Env) (body : Body) (proc : Processor) (key : Str) : Prop :=
  ∃ features t value vars s, SecondPassFrom env body proc features t ∧
    Visits env features t key value vars s ∧ Writes env key value vars s

/-! ### What the first pass sets -/

/-- The parameters that `ParseConfigValue` leaves out while the switch is on. -/
def suppressedBy (switch : Str) : List Str :=
  if switch = wanFailOverSupportKey then [uPnPRefactorKey, xupnpKey]
  else if switch = wanUnificationKey then [selectedOperationalModeKey]
  else []

theorem suppressedBy_wanFailOver : suppressedBy wanFailOverSupportKey = [uPnPRefactorKey, xupnpKey] :=
  if_pos rfl

theorem suppressedBy_wanUnification :
    suppressedBy wanUnificationKey = [selectedOperationalModeKey] := by
  have hne : wanUnificationKey ≠ wanFailOverSupportKey := toList_ne (by simp)
  rw [suppressedBy, if_neg hne, if_pos rfl]

/-- The calls that `ParseConfigValue` makes for a parameter. -/
def OfParse (paramName : Str) (c : RbusCall) : Prop :=
  IsRead c ∨ c.Sets paramName ∨ c.Sets docsisSelectionKey ∨ c.Sets wanoeSelectionKey

theorem switchText_extends (env : Env) (key : Str) (st : St) :
    Extends IsRead st.calls (switchText env key st).state.calls := by
  have hget : Extends IsRead st.calls (st.call (.rbusGet key)).calls := .snoc (isRead_rbusGet key)
  simp only [switchText, St.rbusGet]
  split <;> next hreply => exact (Prod.mk.inj hreply).2 ▸ hget

theorem switchText_of_isOn {env : Env} {key : Str} {st : St} (h : isOn (env.rbusGet st.calls key)) :
    switchText env key st = .ok trueText (st.call (.rbusGet key)) := by
  simp only [switchText, St.rbusGet]
  cases hvalue : env.rbusGet st.calls key with
  | none => rw [hvalue] at h; exact h.elim
  | some rbusValue =>
      rw [hvalue] at h
      cases rbusValue with
      | boolean value =>
          obtain rfl : value = true := h
          rfl
      | string text =>
          obtain rfl : text = some trueText := h
          rfl
      | int32 _ => exact h.elim
      | uint32 _ => exact h.elim
      | int64 _ => exact h.elim
      | uint64 _ => exact h.elim
      | single _ => exact h.elim
      | double _ => exact h.elim
      | other => exact h.elim

theorem selectInterfaces_extends (env : Env) (configValue : Str) (st : St) :
    Extends (fun c => c.Sets docsisSelectionKey ∨ c.Sets wanoeSelectionKey) st.calls
      (selectInterfaces env configValue st).calls := by
  refine Extends.trans (Extends.snoc ?_) (Extends.snoc ?_)
  · exact Or.inl rfl
  · exact Or.inr rfl

theorem sendUpdate_extends (env : Env) (paramName configValue : Str) (paramType : RbusValueType)
    (paramValue : Str) (rebootValue rfcRebootCronNeeded : Bool) (st : St) :
    Extends (OfParse paramName) st.calls (sendUpdate env paramName configValue paramType paramValue
      rebootValue rfcRebootCronNeeded st).state.calls := by
  have hset : ∀ value, Extends (OfParse paramName) st.calls
      (st.call (.rbusSet paramName value)).calls := fun value => .snoc (Or.inr (Or.inl rfl))
  simp only [sendUpdate]
  cases newValue env paramType configValue with
  | none =>
      split
      · exact .refl _
      · split
        · exact .refl _
        · exact .refl _
  | some value =>
      split
      · simp only [St.rbusSet]
        split <;> next hreply => exact (Prod.mk.inj hreply).2 ▸ hset value
      · split
        · exact hset value
        · exact .refl _

theorem updateParam_extends (env : Env) (paramName configValue : Str)
    (rebootValue rfcRebootCronNeeded : Bool) (st : St) :
    Extends (OfParse paramName) st.calls
      (updateParam env paramName configValue rebootValue rfcRebootCronNeeded st).state.calls := by
  have hget : Extends (OfParse paramName) st.calls (st.call (.rbusGet paramName)).calls :=
    .snoc (Or.inl (isRead_rbusGet paramName))
  simp only [updateParam, St.rbusGet]
  split
  next hreply => exact (Prod.mk.inj hreply).2 ▸ hget
  next hreply => exact (Prod.mk.inj hreply).2 ▸ hget
  next hreply =>
    obtain ⟨-, rfl⟩ := Prod.mk.inj hreply
    split
    · exact hget
    · exact hget.trans (sendUpdate_extends ..)

/-- The calls behind a switch are those of its get and of what follows. -/
theorem switchText_bind {P : RbusCall → Prop} (hread : ∀ c, IsRead c → P c) (env : Env) (key : Str)
    (st : St) {β : Type} (f : Str → St → Exec St β)
    (hf : ∀ text s, switchText env key st = .ok text s → Extends P s.calls (f text s).state.calls) :
    Extends P st.calls ((switchText env key st).bind f).state.calls := by
  apply Exec.state_bind (P := fun s : St => Extends P st.calls s.calls)
  · exact (switchText_extends env key st).imp hread
  · intro text s hs hcalls
    exact hcalls.trans (hf text s hs)

theorem parseUnified_extends (env : Env) (paramName configValue : Str)
    (rebootValue rfcRebootCronNeeded : Bool) (st : St) :
    Extends (OfParse paramName) st.calls
      (parseUnified env paramName configValue rebootValue rfcRebootCronNeeded st).state.calls := by
  apply switchText_bind fun c hc => Or.inl hc
  intro text s _
  split
  · exact (selectInterfaces_extends env configValue s).imp fun c hc => Or.inr (Or.inr hc)
  · exact updateParam_extends env paramName configValue rebootValue rfcRebootCronNeeded s

theorem parseOpened_extends (env : Env) (paramName configValue : Str)
    (rebootValue rfcRebootCronNeeded : Bool) (st : St) :
    Extends (OfParse paramName) st.calls
      (parseOpened env paramName configValue rebootValue rfcRebootCronNeeded st).state.calls := by
  apply switchText_bind fun c hc => Or.inl hc
  intro text s _
  split
  · exact .refl s.calls
  · exact parseUnified_extends env paramName configValue rebootValue rfcRebootCronNeeded s

/-- The suppressed parameters are none of those that the manager sets of its own accord. -/
structure Settable (key : Str) : Prop where
  docsis : docsisSelectionKey ≠ key
  wanoe : wanoeSelectionKey ≠ key
  codebig : codebigSupportKey ≠ key
  container : containerSupportKey ≠ key
  clearDB : clearDBKey ≠ key
  clearDBEnd : clearDBEndKey ≠ key
  bootstrap : bootstrapXconfUrlKeyStr ≠ key

theorem settable_uPnPRefactorKey : Settable uPnPRefactorKey := by
  constructor <;> exact toList_ne (by simp)

theorem settable_xupnpKey : Settable xupnpKey := by
  constructor <;> exact toList_ne (by simp)

theorem settable_selectedOperationalModeKey : Settable selectedOperationalModeKey := by
  constructor <;> exact toList_ne (by simp)

theorem settable_of_mem {switch key : Str} (h : key ∈ suppressedBy switch) : Settable key := by
  unfold suppressedBy at h
  split at h
  · simp only [List.mem_cons, List.not_mem_nil, or_false] at h
    rcases h with rfl | rfl
    · exact settable_uPnPRefactorKey
    · exact settable_xupnpKey
  · split at h
    · obtain rfl := List.mem_singleton.mp h
      exact settable_selectedOperationalModeKey
    · exact absurd h List.not_mem_nil

theorem RbusCall.Sets.unique {key key' : Str} {c : RbusCall} (h : c.Sets key) (h' : c.Sets key') :
    key = key' := by
  cases c with
  | rbusOpen => exact h.elim
  | rbusGet _ => exact h.elim
  | rbusSet _ _ => exact h.symm.trans h'

theorem Settable.not_sets_of_interfaces {key : Str} (hkey : Settable key) {c : RbusCall}
    (hc : c.Sets docsisSelectionKey ∨ c.Sets wanoeSelectionKey) : ¬ c.Sets key := by
  intro hset
  rcases hc with hc | hc
  · exact hkey.docsis (hc.unique hset)
  · exact hkey.wanoe (hc.unique hset)

theorem not_sets_of_ofParse {key paramName : Str} (hdocsis : docsisSelectionKey ≠ key)
    (hwanoe : wanoeSelectionKey ≠ key) (hne : paramName ≠ key) {c : RbusCall}
    (hc : OfParse paramName c) : ¬ c.Sets key := by
  rcases hc with hread | hname | hinterface | hinterface
  · exact not_sets_of_isRead hread
  · exact fun hset => hne (hname.unique hset)
  · exact fun hset => hdocsis (hinterface.unique hset)
  · exact fun hset => hwanoe (hinterface.unique hset)

theorem Settable.not_sets_of_ofParse {key paramName : Str} (hkey : Settable key)
    (hne : paramName ≠ key) {c : RbusCall} (hc : OfParse paramName c) : ¬ c.Sets key :=
  Rdkb.not_sets_of_ofParse hkey.docsis hkey.wanoe hne hc

section Switched

variable {env : Env} {whole : List RbusCall}

theorem parseUnified_spares (hon : EnabledThroughout env wanUnificationKey whole)
    (paramName configValue : Str) (rebootValue rfcRebootCronNeeded : Bool) (st : St) :
    Spares (RbusCall.Sets selectedOperationalModeKey) whole st.calls
      (parseUnified env paramName configValue rebootValue rfcRebootCronNeeded st).state.calls := by
  have hmode := settable_selectedOperationalModeKey
  have hcalls := parseUnified_extends env paramName configValue rebootValue rfcRebootCronNeeded st
  by_cases hname : paramName = selectedOperationalModeKey
  · intro hwhole
    have hswitch := switchText_of_isOn (hon st.calls (hcalls.isPrefix.trans hwhole))
    rw [parseUnified, hswitch, Exec.bind_ok, if_pos ⟨rfl, hname⟩, Exec.state_ok]
    refine Extends.trans (Extends.snoc ?_) ((selectInterfaces_extends ..).imp ?_)
    · exact not_sets_of_isRead (isRead_rbusGet _)
    · exact fun c hc => hmode.not_sets_of_interfaces hc
  · exact .of_extends (hcalls.imp fun c hc => hmode.not_sets_of_ofParse hname hc)

/-- **What `ParseConfigValue` leaves out**: while the switch is on, it does not set a parameter that the
switch suppresses, whatever it is called for. -/
theorem parseOpened_spares {switch key : Str} (hkey : key ∈ suppressedBy switch)
    (hon : EnabledThroughout env switch whole) (paramName configValue : Str)
    (rebootValue rfcRebootCronNeeded : Bool) (st : St) :
    Spares (RbusCall.Sets key) whole st.calls
      (parseOpened env paramName configValue rebootValue rfcRebootCronNeeded st).state.calls := by
  have hsettable := settable_of_mem hkey
  have hcalls := parseOpened_extends env paramName configValue rebootValue rfcRebootCronNeeded st
  by_cases hname : paramName = key
  · subst hname
    intro hwhole
    unfold suppressedBy at hkey
    split at hkey
    next hswitch =>
      subst hswitch
      have htext := switchText_of_isOn (hon st.calls (hcalls.isPrefix.trans hwhole))
      have hleft : paramName = uPnPRefactorKey ∨ paramName = xupnpKey := by
        simpa only [List.mem_cons, List.not_mem_nil, or_false] using hkey
      rw [parseOpened, htext, Exec.bind_ok, if_pos ⟨rfl, hleft⟩, Exec.state_ok]
      exact Extends.snoc (not_sets_of_isRead (isRead_rbusGet _))
    · split at hkey
      next hswitch =>
        subst hswitch
        obtain rfl : paramName = selectedOperationalModeKey := List.mem_singleton.mp hkey
        have hother : ¬ (selectedOperationalModeKey = uPnPRefactorKey ∨
            selectedOperationalModeKey = xupnpKey) := by
          rintro (heq | heq)
          · exact toList_ne (by simp) heq
          · exact toList_ne (by simp) heq
        -- the first switch lets the parameter through
        have hpass : Spares (RbusCall.Sets selectedOperationalModeKey) whole st.calls
            (parseOpened env selectedOperationalModeKey configValue rebootValue rfcRebootCronNeeded
              st).state.calls := by
          apply Exec.state_bind
            (P := fun s : St => Spares (RbusCall.Sets selectedOperationalModeKey) whole st.calls s.calls)
          · exact .of_extends ((switchText_extends env _ st).imp fun c hc => not_sets_of_isRead hc)
          · intro text s _ hs
            rw [if_neg fun h => hother h.2]
            exact hs.trans (parseUnified_spares hon _ configValue rebootValue rfcRebootCronNeeded s)
        exact hpass hwhole
      · exact absurd hkey List.not_mem_nil
  · exact .of_extends (hcalls.imp fun c hc => hsettable.not_sets_of_ofParse hname hc)

theorem parseConfigValue_spares {switch key : Str} (hkey : key ∈ suppressedBy switch)
    (hon : EnabledThroughout env switch whole) (configKey configValue : Str)
    (rebootValue rfcRebootCronNeeded : Bool) (st : St) :
    Spares (RbusCall.Sets key) whole st.calls
      (parseConfigValue env configKey configValue rebootValue rfcRebootCronNeeded st).state.calls := by
  have hopen : Spares (RbusCall.Sets key) whole st.calls (st.call .rbusOpen).calls :=
    .of_extends (.snoc (not_sets_of_isRead isRead_rbusOpen))
  simp only [parseConfigValue, St.rbusOpen]
  split
  next hreply => exact (Prod.mk.inj hreply).2 ▸ hopen
  next hreply =>
    obtain ⟨-, rfl⟩ := Prod.mk.inj hreply
    exact hopen.trans (parseOpened_spares hkey hon _ configValue rebootValue rfcRebootCronNeeded _)

theorem parseFeature_spares {switch key : Str} (hkey : key ∈ suppressedBy switch)
    (hon : EnabledThroughout env switch whole) (feature : Json) (rfcRebootCronNeeded : Bool) (st : St) :
    Spares (RbusCall.Sets key) whole st.calls
      (parseFeature env feature rfcRebootCronNeeded st).state.calls := by
  simp only [parseFeature]
  split
  · exact .refl st.calls
  next rfcObj _ =>
    split
    · exact .refl st.calls
    next configData _ =>
      apply Exec.forList_state (R := fun s t : St => Spares (RbusCall.Sets key) whole s.calls t.calls)
      · exact fun s => .refl s.calls
      · exact fun s t u => Spares.trans
      · intro child _ cron s
        simp only [parseChild]
        split
        · exact .refl s.calls
        next configKey configValue _ =>
          apply Exec.state_bind (P := fun t : St => Spares (RbusCall.Sets key) whole s.calls t.calls)
          · exact parseConfigValue_spares hkey hon configKey configValue _ cron s
          · exact fun _ _ _ ht => ht

/-- **The first pass.** -/
theorem firstPass_spares {switch key : Str} (hkey : key ∈ suppressedBy switch)
    (hon : EnabledThroughout env switch whole) (features : List Json) (st : St) :
    Spares (RbusCall.Sets key) whole st.calls
      (Exec.forList (parseFeature env) features false st).state.calls := by
  apply Exec.forList_state (R := fun s t : St => Spares (RbusCall.Sets key) whole s.calls t.calls)
  · exact fun s => .refl s.calls
  · exact fun s t u => Spares.trans
  · exact fun feature _ cron s => parseFeature_spares hkey hon feature cron s

end Switched

/-! ### What the second pass sets -/

theorem isConfigValueChange_extends (env : Env) (key value currentValue : Str) (st : St) :
    Extends IsRead st.calls (isConfigValueChange env key value currentValue st).2.calls := by
  have hread := readRFCProperty_extends env key 4096 st
  simp only [isConfigValueChange]
  split
  next hreply =>
    rw [hreply] at hread
    exact hread
  next hreply =>
    rw [hreply] at hread
    split
    · exact hread
    · exact hread

theorem downloadRuntimeFeatutres_extends (env : Env) (allocated : Bool) (x : Exchange) (st : St) :
    Extends IsRead st.calls (downloadRuntimeFeatutres env allocated x st).2.calls := by
  have hstored : Extends IsRead st.calls (getStoredHashAndTime env st).calls := by
    unfold getStoredHashAndTime
    split
    · exact readRFCProperty_extends ..
    · exact .refl st.calls
  unfold downloadRuntimeFeatutres
  split
  · exact .refl st.calls
  · exact hstored

theorem validateXconfUrl_extends (env : Env) (allocated : Bool) (tries i : Nat) (st : St) :
    Extends IsRead st.calls (validateXconfUrl env allocated tries i st).2.calls := by
  induction tries generalizing i st with
  | zero => exact .refl st.calls
  | succ tries ih =>
      have hfirst := downloadRuntimeFeatutres_extends env allocated (env.validation i) st
      simp only [validateXconfUrl]
      split
      · exact hfirst
      · exact hfirst.trans (ih (i + 1) _)

theorem processXconfUrl_extends (env : Env) (st : St) :
    Extends IsRead st.calls (processXconfUrl env st).state.calls := by
  have hvalidate := validateXconfUrl_extends env
    (env.validationDwnLocAllocated && env.validationHeaderAllocated) 2 0 st
  simp only [processXconfUrl]
  split
  · exact hvalidate
  · exact hvalidate

/-- **The calls of a turn of the second pass**: an `rbus_set` of its parameter at the end, exactly when it
gets that far. -/
theorem applyParam_calls (env : Env) {pair : Str × Str} (hboot : pair.1 ≠ bootstrapXconfUrlKeyStr)
    (vars : ApplyVars) (st : St) :
    ¬ Writes env pair.1 pair.2 vars st ∧
        Extends IsRead st.calls (applyParam env pair vars st).state.calls ∨
      Writes env pair.1 pair.2 vars st ∧ ∃ calls new, Extends IsRead st.calls calls ∧
        (applyParam env pair vars st).state.calls = calls ++ [.rbusSet pair.1 new] := by
  have hcheck := isConfigValueChange_extends env pair.1 pair.2 vars.currentValue st
  simp only [applyParam, Writes]
  generalize isConfigValueChange env pair.1 pair.2 vars.currentValue st = check at hcheck ⊢
  obtain ⟨⟨configChanged, currentValue⟩, t⟩ := check
  cases configChanged with
  | false => exact Or.inl ⟨by simp, hcheck⟩
  | true =>
      simp only [Bool.true_eq_false, if_false, true_and]
      have hstate : ((setRFCProperty env pair.1 pair.2 t).bind fun _ st =>
          Exec.ok (listParam pair.1 pair.2 currentValue vars) st).state =
            (setRFCProperty env pair.1 pair.2 t).state := by
        cases setRFCProperty env pair.1 pair.2 t with
        | ok a s => rfl
        | crash s => rfl
      rw [if_neg hboot, Exec.bind_ok, if_neg (not_not_intro rfl), hstate]
      obtain ⟨hnot, hreads⟩ | ⟨hsends, calls, new, hreads, hcalls⟩ :=
        setRFCProperty_calls env pair.1 pair.2 t
      · exact Or.inl ⟨hnot, hcheck.trans hreads⟩
      · exact Or.inr ⟨hsends, calls, new, hcheck.trans hreads, hcalls⟩

/-- No other parameter is set in a turn, not even in the one of the URL that is validated first. -/
theorem applyParam_extends (env : Env) (pair : Str × Str) (vars : ApplyVars) (st : St) :
    Extends (fun c => IsRead c ∨ c.Sets pair.1) st.calls (applyParam env pair vars st).state.calls := by
  have hcheck : Extends (fun c => IsRead c ∨ c.Sets pair.1) st.calls
      (isConfigValueChange env pair.1 pair.2 vars.currentValue st).2.calls :=
    (isConfigValueChange_extends ..).imp fun _ hc => Or.inl hc
  simp only [applyParam]
  generalize isConfigValueChange env pair.1 pair.2 vars.currentValue st = check at hcheck ⊢
  obtain ⟨⟨configChanged, currentValue⟩, t⟩ := check
  split
  · exact hcheck
  · apply Exec.state_bind
      (P := fun s : St => Extends (fun c => IsRead c ∨ c.Sets pair.1) st.calls s.calls)
    · split
      · exact hcheck.trans ((processXconfUrl_extends env t).imp fun _ hc => Or.inl hc)
      · exact hcheck
    · intro rc u _ hu
      split
      · exact hu
      · apply Exec.state_bind
          (P := fun s : St => Extends (fun c => IsRead c ∨ c.Sets pair.1) st.calls s.calls)
        · exact hu.trans (setRFCProperty_extends env pair.1 pair.2 u)
        · exact fun _ _ _ h => h

/-- **What a turn of the second pass sets**: its own parameter, when it gets as far as the `rbus_set`. -/
theorem made_applyParam (env : Env) {key : Str} (hkey : Settable key) (pair : Str × Str)
    (vars : ApplyVars) (st : St) :
    Made (RbusCall.Sets key) (applyParam env pair vars st).state.calls ↔
      Made (RbusCall.Sets key) st.calls ∨ (pair.1 = key ∧ Writes env pair.1 pair.2 vars st) := by
  by_cases hboot : pair.1 = bootstrapXconfUrlKeyStr
  · -- the URL that is validated first is none of the suppressed parameters
    have hne : pair.1 ≠ key := hboot ▸ hkey.bootstrap
    have hothers : Extends (fun c => ¬ c.Sets key) st.calls (applyParam env pair vars st).state.calls :=
      (applyParam_extends env pair vars st).imp fun c hc =>
        hc.elim not_sets_of_isRead fun hset hset' => hne (hset.unique hset')
    rw [hothers.made_iff, or_iff_left fun h => hne h.1]
  · obtain ⟨hnot, hreads⟩ | ⟨hwrites, calls, new, hreads, hcalls⟩ := applyParam_calls env hboot vars st
    · rw [made_of_reads key hreads]
      exact (or_iff_left fun h => hnot h.2).symm
    · rw [hcalls, made_snoc, made_of_reads key hreads, and_iff_left hwrites]
      exact Iff.rfl

theorem visits_iff {env : Env} {features : List Json} {t s : St} {key value : Str} {vars : ApplyVars}
    {map : ConfigMap} (hmap : createConfigDataValueMap features t.proc.rfcKeyAndValueMap = some map) :
    Visits env features t key value vars s ↔
      Exec.Reaches (applyParam env) map.toList ⟨[], []⟩ (withMap map t) (key, value) vars s := by
  constructor
  · rintro ⟨map', hsome, hreaches⟩
    obtain rfl : map = map' := Option.some.inj (hmap.symm.trans hsome)
    exact hreaches
  · exact fun hreaches => ⟨map, hmap, hreaches⟩

/-- **What the second pass sets.** -/
theorem made_secondPass (env : Env) {key : Str} (hkey : Settable key) (features : List Json) (t : St) :
    Made (RbusCall.Sets key) (processXconfResponseConfigDataPart env features t).state.calls ↔
      Made (RbusCall.Sets key) t.calls ∨
        ∃ value vars s, Visits env features t key value vars s ∧ Writes env key value vars s := by
  cases hmap : createConfigDataValueMap features t.proc.rfcKeyAndValueMap with
  | none =>
      simp only [processXconfResponseConfigDataPart, hmap, Exec.state_crash]
      refine (or_iff_left ?_).symm
      rintro ⟨value, vars, s, ⟨map, hsome, -⟩, -⟩
      cases hmap.symm.trans hsome
  | some map =>
      have hloop := Exec.forList_gathers (P := fun s : St => Made (RbusCall.Sets key) s.calls)
        (Q := fun (pair : Str × Str) vars s => pair.1 = key ∧ Writes env pair.1 pair.2 vars s)
        (fun (pair : Str × Str) (_ : pair ∈ map.toList) vars s =>
          made_applyParam env hkey pair vars s) ⟨[], []⟩ (withMap map t)
      have hturns : (∃ (pair : Str × Str) (vars : ApplyVars) (s : St),
          Exec.Reaches (applyParam env) map.toList ⟨[], []⟩ (withMap map t) pair vars s ∧
            pair.1 = key ∧ Writes env pair.1 pair.2 vars s) ↔
          ∃ value vars s, Visits env features t key value vars s ∧ Writes env key value vars s := by
        constructor
        · rintro ⟨⟨_, value⟩, vars, s, hreaches, rfl, hwrites⟩
          exact ⟨value, vars, s, (visits_iff hmap).mpr hreaches, hwrites⟩
        · rintro ⟨value, vars, s, hvisit, hwrites⟩
          exact ⟨(key, value), vars, s, (visits_iff hmap).mp hvisit, rfl, hwrites⟩
      rw [hturns] at hloop
      simp only [processXconfResponseConfigDataPart, hmap]
      by_cases hempty : map.isEmpty = true
      · rw [if_pos hempty]
        refine (or_iff_left ?_).symm
        rintro ⟨value, vars, s, hvisit, -⟩
        obtain ⟨earlier, later, hlist, -⟩ := (visits_iff hmap).mp hvisit
        exact Bool.false_ne_true ((isEmpty_eq_false hlist).symm.trans hempty)
      · rw [if_neg hempty]
        refine Iff.trans ?_ hloop
        cases Exec.forList (applyParam env) map.toList ⟨[], []⟩ (withMap map t) with
        | ok vars s => exact Iff.rfl
        | crash s => exact Iff.rfl

theorem secondPass_isPrefix (env : Env) (features : List Json) (t : St) :
    t.calls <+: (processXconfResponseConfigDataPart env features t).state.calls := by
  unfold processXconfResponseConfigDataPart
  split
  · exact List.prefix_rfl
  next map _ =>
    split
    · exact List.prefix_rfl
    · apply Exec.state_bind (P := fun s : St => t.calls <+: s.calls)
      · exact Exec.forList_state (R := fun s u : St => s.calls <+: u.calls) (fun _ => List.prefix_rfl)
          (fun _ _ _ => List.IsPrefix.trans)
          (fun pair _ vars s => (applyParam_extends env pair vars s).isPrefix)
          ⟨[], []⟩ (withMap map t)
      · exact fun _ _ _ h => h

/-! ### What a response sets -/

/-- The sets around the passes. -/
theorem not_made_setInitial (env : Env) {key : Str} (hkey : Settable key) (proc : Processor) :
    ¬ Made (RbusCall.Sets key) (setInitial env (St.call ⟨proc, [], false⟩ .rbusOpen)).calls := by
  rintro ⟨c, hc, hset⟩
  have hcalls : c ∈ [RbusCall.rbusOpen, .rbusSet codebigSupportKey (.boolean false),
      .rbusSet containerSupportKey (.boolean false), .rbusSet clearDBKey (.boolean true)] := hc
  simp only [List.mem_cons, List.not_mem_nil, or_false] at hcalls
  rcases hcalls with rfl | rfl | rfl | rfl
  · exact hset
  · exact hkey.codebig hset
  · exact hkey.container hset
  · exact hkey.clearDB hset

theorem made_setClearDBEnd (env : Env) {key : Str} (hkey : Settable key) (st : St) :
    Made (RbusCall.Sets key) (setClearDBEnd env st).calls ↔ Made (RbusCall.Sets key) st.calls :=
  made_snoc.trans (or_iff_left hkey.clearDBEnd)

section Passes

variable {env : Env} {proc : Processor} {pJson : Json}

/-- The first pass over the features of a response. -/
def firstPass (env : Env) (pJson : Json) (proc : Processor) : Exec St Bool :=
  Exec.forList (parseFeature env) ((getRuntimeFeatureControlJSON pJson).getD []) false
    (setInitial env (St.call ⟨proc, [], false⟩ .rbusOpen))

theorem responseCalls_of_not_open (hopen : env.rbusOpen [] = false) (body : Body) :
    responseCalls env body proc = [.rbusOpen] := by
  simp only [responseCalls, processJsonResponseB, St.rbusOpen, hopen]
  rfl

theorem responseCalls_of_unparsed (hopen : env.rbusOpen [] = true) : responseCalls env none proc =
    (setInitial env (St.call ⟨proc, [], false⟩ .rbusOpen)).calls := by
  simp only [responseCalls, processJsonResponseB, St.rbusOpen, hopen]
  rfl

theorem responseCalls_of_crash (hopen : env.rbusOpen [] = true) {s : St}
    (hfirst : firstPass env pJson proc = .crash s) : responseCalls env (some pJson) proc = s.calls := by
  rw [firstPass] at hfirst
  simp only [responseCalls, processJsonResponseB, St.rbusOpen, hopen]
  rw [hfirst, Exec.bind_crash, Exec.state_crash]

/-- Behind the second pass nothing is set. -/
theorem responseCalls_of_ok (hopen : env.rbusOpen [] = true) {rfcRebootCronNeeded : Bool} {s : St}
    (hfirst : firstPass env pJson proc = .ok rfcRebootCronNeeded s) :
    Extends IsRead (processXconfResponseConfigDataPart env
      ((getRuntimeFeatureControlJSON pJson).getD []) (setClearDBEnd env s)).state.calls
      (responseCalls env (some pJson) proc) := by
  rw [firstPass] at hfirst
  simp only [responseCalls, processJsonResponseB, St.rbusOpen, hopen]
  rw [hfirst, Exec.bind_ok]
  cases processXconfResponseConfigDataPart env ((getRuntimeFeatureControlJSON pJson).getD [])
      (setClearDBEnd env s) with
  | crash t => exact .refl t.calls
  | ok _ t =>
      have hread := readRFCProperty_extends env rfcAccountIdKeyStr 1024 t
      rw [Exec.bind_ok]
      split
      · exact hread
      · exact hread

end Passes

/-- Where the second pass starts, once the first one is known. -/
theorem secondPassFrom_iff (hopen : env.rbusOpen [] = true) {rfcRebootCronNeeded : Bool} {s : St}
    (hfirst : firstPass env pJson proc = .ok rfcRebootCronNeeded s) {features : List Json} {t : St} :
    SecondPassFrom env (some pJson) proc features t ↔
      features = (getRuntimeFeatureControlJSON pJson).getD [] ∧ t = setClearDBEnd env s := by
  constructor
  · rintro ⟨-, pJson', _, s', hbody, rfl, hok, ht⟩
    obtain rfl := Option.some.inj hbody
    obtain ⟨-, rfl⟩ := Exec.ok.inj (hfirst.symm.trans hok)
    exact ⟨rfl, ht⟩
  · rintro ⟨rfl, ht⟩
    exact ⟨hopen, pJson, rfcRebootCronNeeded, s, rfl, rfl, hfirst, ht⟩

theorem not_secondPassFrom_of_crash {s : St} (hfirst : firstPass env pJson proc = .crash s)
    (features : List Json) (t : St) : ¬ SecondPassFrom env (some pJson) proc features t := by
  rintro ⟨-, pJson', _, _, hbody, rfl, hok, -⟩
  obtain rfl := Option.some.inj hbody
  cases hfirst.symm.trans hok

/-- **What a response sets while the switch is on**: a suppressed parameter exactly when the second pass
sets it. -/
theorem made_responseCalls (env : Env) (body : Body) (proc : Processor) {switch key : Str}
    (hkey : key ∈ suppressedBy switch)
    (hon : EnabledThroughout env switch (responseCalls env body proc)) :
    Made (RbusCall.Sets key) (responseCalls env body proc) ↔ WrittenAgain env body proc key := by
  have hsettable := settable_of_mem hkey
  have hinitial := not_made_setInitial env hsettable proc
  cases hopen : env.rbusOpen [] with
  | false =>
      rw [responseCalls_of_not_open hopen]
      refine iff_of_false ?_ ?_
      · rintro ⟨c, hc, hset⟩
        obtain rfl := List.mem_singleton.mp hc
        exact hset
      · rintro ⟨_, _, _, _, _, ⟨htrue, -⟩, -⟩
        exact Bool.false_ne_true (hopen.symm.trans htrue)
  | true =>
      cases body with
      | none =>
          rw [responseCalls_of_unparsed hopen]
          refine iff_of_false hinitial ?_
          rintro ⟨_, _, _, _, _, ⟨-, _, _, _, hbody, -⟩, -⟩
          cases hbody
      | some pJson =>
          have hspares := fun whole (hwhole : EnabledThroughout env switch whole) =>
            firstPass_spares hkey hwhole ((getRuntimeFeatureControlJSON pJson).getD [])
              (setInitial env (St.call ⟨proc, [], false⟩ .rbusOpen))
          rw [← firstPass] at hspares
          cases hfirst : firstPass env pJson proc with
          | crash s =>
              rw [responseCalls_of_crash hopen hfirst] at hon ⊢
              have hextends := hspares s.calls hon
              rw [hfirst, Exec.state_crash] at hextends
              refine iff_of_false ?_ ?_
              · rw [(hextends List.prefix_rfl).made_iff]
                exact hinitial
              · rintro ⟨_, _, _, _, _, hpass, -⟩
                exact not_secondPassFrom_of_crash hfirst _ _ hpass
          | ok rfcRebootCronNeeded s =>
              have hbehind := responseCalls_of_ok hopen hfirst
              have hextends := hspares (responseCalls env (some pJson) proc) hon
              rw [hfirst, Exec.state_ok] at hextends
              have hwhole : s.calls <+: responseCalls env (some pJson) proc :=
                ((List.prefix_append _ _).trans
                  (secondPass_isPrefix env ((getRuntimeFeatureControlJSON pJson).getD [])
                    (setClearDBEnd env s))).trans hbehind.isPrefix
              have hnone : ¬ Made (RbusCall.Sets key) (setClearDBEnd env s).calls := by
                rw [made_setClearDBEnd env hsettable, (hextends hwhole).made_iff]
                exact hinitial
              rw [made_of_reads key hbehind, made_secondPass env hsettable, or_iff_right hnone]
              constructor
              · rintro ⟨value, vars, t, hrest⟩
                exact ⟨_, _, value, vars, t, (secondPassFrom_iff hopen hfirst).mpr ⟨rfl, rfl⟩, hrest⟩
              · rintro ⟨features, t, value, vars, u, hpass, hrest⟩
                obtain ⟨rfl, rfl⟩ := (secondPassFrom_iff hopen hfirst).mp hpass
                exact ⟨value, vars, u, hrest⟩

/-- **When a response leaves the suppressed parameters alone.** -/
theorem suppressed_iff (env : Env) (body : Body) (proc : Processor) :
    Suppressed env body proc ↔
      (EnabledThroughout env wanFailOverSupportKey (responseCalls env body proc) →
        ∀ key ∈ [uPnPRefactorKey, xupnpKey], ¬ WrittenAgain env body proc key) ∧
      (EnabledThroughout env wanUnificationKey (responseCalls env body proc) →
        ¬ WrittenAgain env body proc selectedOperationalModeKey) := by
  have hfail : EnabledThroughout env wanFailOverSupportKey (responseCalls env body proc) →
      ∀ key ∈ [uPnPRefactorKey, xupnpKey],
        (Made (RbusCall.Sets key) (responseCalls env body proc) ↔ WrittenAgain env body proc key) := by
    intro hon key hkey
    exact made_responseCalls env body proc (suppressedBy_wanFailOver ▸ hkey) hon
  have hunified : EnabledThroughout env wanUnificationKey (responseCalls env body proc) →
      (Made (RbusCall.Sets selectedOperationalModeKey) (responseCalls env body proc) ↔
        WrittenAgain env body proc selectedOperationalModeKey) := by
    intro hon
    refine made_responseCalls env body proc ?_ hon
    rw [suppressedBy_wanUnification]
    exact List.mem_singleton.mpr rfl
  constructor
  · rintro ⟨hwanFailOver, hwanUnification⟩
    refine ⟨?_, ?_⟩
    · intro hon key hkey hagain
      exact hwanFailOver hon key hkey ((hfail hon key hkey).mpr hagain)
    · intro hon hagain
      exact hwanUnification hon ((hunified hon).mpr hagain)
  · rintro ⟨hwanFailOver, hwanUnification⟩
    refine ⟨?_, ?_⟩
    · intro hon key hkey hmade
      exact hwanFailOver hon key hkey ((hfail hon key hkey).mp hmade)
    · intro hon hmade
      exact hwanUnification hon ((hunified hon).mp hmade)

/-- Every parameter is a boolean that is true, and every set is taken. -/
def allTrue : Env where
  rbusOpen _ := true
  rbusGet _ _ := some (.boolean true)
  rbusSet _ _ _ := true
  bsStore _ := none
  stof _ := none
  stod _ := none
  ulongWidth := 32
  validationDwnLocAllocated := true
  validationHeaderAllocated := true
  validation _ := ⟨true, 0, 200⟩

def Processor.fresh : Processor := ⟨∅, .finish, "V1".toList, "V1".toList⟩

/-- A response that switches Xupnp off. -/
def xupnpOff : Body :=
  responseBody [.object (plainFeature "UPnP".toList
    [("tr181.".toList ++ xupnpKey, .string falseText)])]

theorem not_suppressed : ¬ Suppressed allTrue xupnpOff .fresh := by
  intro h
  have hset : RbusCall.rbusSet xupnpKey (.boolean false) ∈ responseCalls allTrue xupnpOff .fresh := by
    decide +kernel
  exact h.wanFailOver (fun _ _ => rfl) xupnpKey (List.mem_cons_of_mem _ (List.mem_singleton.mpr rfl))
    ⟨_, hset, rfl⟩

end RfcMgr.Rdkb
