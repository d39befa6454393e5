import RfcMgr.OwnResponse
import RfcMgr.ParamDecisions

/-! What an apply step leaves in the RFC store: the parameters of the response and the control entries,
unless the response gives no parameter at all, for then the store is not cleared. -/

namespace RfcMgr

open LastInsert

/-! ### What a pass of the loop does to the store -/

/-- The pass over a parameter sets it, and the hostif takes the value. -/
def Writes (env : Env) (key value : Str) (vars : ApplyVars) (st : St) : Prop :=
  (paramCheck env key value vars st).changed = true ∧ value ≠ [] ∧
    (validated env key value (paramRead env key st)).value? = some .success ∧
    (validated env key value (paramRead env key st)).state.dev.Accepts env.hostif key value

theorem Device.storeAfterSet_congr {dev dev' : Device} (h : dev'.rfcStore = dev.rfcStore)
    (key value : Str) : dev'.storeAfterSet key value = dev.storeAfterSet key value := by
  rw [storeAfterSet, storeAfterSet, h]

theorem validated_rfcStore (env : Env) (key value : Str) (st : St) :
    (validated env key value (paramRead env key st)).state.dev.rfcStore = st.dev.rfcStore := by
  have hread : (paramRead env key st).dev.rfcStore = st.dev.rfcStore := St.read_rfcStore ..
  unfold validated
  split
  · exact (validates_processXconfUrl env value _).rfcStore.trans hread
  · exact hread

theorem applyParam_of_writes {env : Env} {key value : Str} {vars : ApplyVars} {st : St}
    (h : Writes env key value vars st) :
    (applyParam env (key, value) vars st).state.dev.rfcStore = st.dev.storeAfterSet key value := by
  obtain ⟨hwritten, hne, hvalid, haccepts⟩ := h
  have hstore := validated_rfcStore env key value st
  have hstep := applyParam_step env key value vars st
  generalize applyParam env (key, value) vars st = out at hstep ⊢
  cases hstep with
  | unchanged hchanged =>
      rw [hchanged] at hwritten
      cases hwritten
  | rejected _ hempty => exact absurd hempty hne
  | crashed _ _ hvalidated =>
      rw [hvalidated] at hvalid
      cases hvalid
  | invalid _ _ hvalidated hrc =>
      rw [hvalidated] at hvalid
      exact absurd (Option.some.inj hvalid) hrc
  | written _ _ hvalidated =>
      rw [hvalidated, Exec.state_ok] at haccepts hstore
      exact (Device.setRFCProperty_of_accepts _ _ _ _ haccepts).trans
        (Device.storeAfterSet_congr hstore key value)

theorem applyParam_of_not_writes {env : Env} {key value : Str} {vars : ApplyVars} {st : St}
    (h : ¬ Writes env key value vars st) :
    (applyParam env (key, value) vars st).state.dev.rfcStore = st.dev.rfcStore := by
  have hread : (paramRead env key st).dev.rfcStore = st.dev.rfcStore := St.read_rfcStore ..
  have hstore := validated_rfcStore env key value st
  have hstep := applyParam_step env key value vars st
  generalize applyParam env (key, value) vars st = out at hstep ⊢
  cases hstep with
  | unchanged | rejected => exact hread
  | crashed _ _ hvalidated | invalid _ _ hvalidated =>
      rw [hvalidated] at hstore
      exact hstore
  | written hchanged hne hvalidated =>
      rw [Writes, hvalidated] at h
      rw [hvalidated] at hstore
      have hrefused := fun haccepts => h ⟨hchanged, hne, rfl, haccepts⟩
      exact (Device.setRFCProperty_of_not_accepts _ _ _ _ hrefused).trans hstore

/-! ### The parameters a store may hold -/

/-- Every parameter that the store holds is one of `keys`. -/
def HoldsOnly (keys : Str → Prop) (store : Str → Option Str) : Prop :=
  ∀ key, store key ≠ none → keys key

section HoldsOnly

variable {keys : Str → Prop}

theorem holdsOnly_empty : HoldsOnly keys fun _ => none := fun _ h => absurd rfl h

theorem HoldsOnly.mono {keys' : Str → Prop} (hsub : ∀ key, keys key → keys' key)
    {store : Str → Option Str} (h : HoldsOnly keys store) : HoldsOnly keys' store :=
  fun key hkey => hsub key (h key hkey)

theorem HoldsOnly.storeAfterSet {dev : Device} (h : HoldsOnly keys dev.rfcStore) {key : Str}
    (hkey : keys key) (value : Str) : HoldsOnly keys (dev.storeAfterSet key value) := by
  unfold Device.storeAfterSet
  split
  · exact holdsOnly_empty
  · intro other hother
    by_cases hsame : other = key
    · exact hsame ▸ hkey
    · rw [Function.update_of_ne hsame] at hother
      exact h other hother

theorem HoldsOnly.set {st : St} (h : HoldsOnly keys st.dev.rfcStore) (env : Env) {key : Str}
    (hkey : keys key) (value : Str) : HoldsOnly keys (st.set env key value).2.dev.rfcStore := by
  obtain hsame | hset := Device.setRFCProperty_rfcStore env.hostif st.dev key value
  · exact fun other hother => h other (hsame ▸ hother)
  · exact fun other hother => h.storeAfterSet hkey value other (hset ▸ hother)

theorem HoldsOnly.applyParam {st : St} (h : HoldsOnly keys st.dev.rfcStore) (env : Env)
    {pair : Str × Str} (hkey : keys pair.1) (vars : ApplyVars) :
    HoldsOnly keys (applyParam env pair vars st).state.dev.rfcStore := by
  by_cases hwrites : Writes env pair.1 pair.2 vars st
  · rw [applyParam_of_writes hwrites]
    exact h.storeAfterSet hkey pair.2
  · rw [applyParam_of_not_writes hwrites]
    exact h

theorem HoldsOnly.applyParams {st : St} (h : HoldsOnly keys st.dev.rfcStore) (env : Env)
    {pairs : List (Str × Str)} (hkeys : ∀ pair ∈ pairs, keys pair.1) (vars : ApplyVars) :
    HoldsOnly keys (Exec.forList (RfcMgr.applyParam env) pairs vars st).state.dev.rfcStore := by
  have hloop : HoldsOnly keys st.dev.rfcStore →
      HoldsOnly keys (Exec.forList (RfcMgr.applyParam env) pairs vars st).state.dev.rfcStore := by
    apply Exec.forList_state (R := fun s t : St =>
      HoldsOnly keys s.dev.rfcStore → HoldsOnly keys t.dev.rfcStore)
    · exact fun _ hs => hs
    · exact fun _ _ _ hst htu hs => htu (hst hs)
    · exact fun pair hpair vars s hs => hs.applyParam env (hkeys pair hpair) vars
  exact hloop h

end HoldsOnly

/-! ### The apply step -/

/-- The entries that the manager itself keeps in the store: the stashed account, the markers around
the clearing, hash and time. -/
def controlKeys : List Str :=
  [rfcAccountIdKeyStr, clearDBKey, bootstrapClearDBKey, clearDBEndKey, bootstrapClearDBEndKey,
    reloadCacheKey, configChangeTimeKey, rfcConfigSetHash, rfcConfigSetTime]

/-- The keys of the configData members, as the manager stores them. -/
def configKeys (features : List Json) : List Str :=
  (features.flatMap members).filterMap fun child => child.1.map normaliseKey

/-- The store holds no parameter that an earlier response has left. -/
def NoStale (features : List Json) (store : Str → Option Str) : Prop :=
  HoldsOnly (fun key => key ∈ configKeys features ∨ key ∈ controlKeys) store

/-- A set of `ClearDB` removes every parameter. -/
def ClearsStore (h : Hostif) : Prop :=
  ∀ dev value, (Device.setRFCProperty h dev clearDBKey value).2.rfcStore = fun _ => none

theorem mem_configKeys_of_mem_storedEntries {features : List Json} {key value : Str}
    (h : (key, value) ∈ storedEntries features) : key ∈ configKeys features := by
  obtain ⟨⟨name, v⟩, hentry, hpair⟩ := List.mem_map.mp h
  obtain ⟨feature, hfeature, hmember⟩ := List.mem_flatMap.mp hentry
  obtain ⟨⟨name', item⟩, hchild, hstring⟩ := List.mem_filterMap.mp hmember
  refine List.mem_filterMap.mpr ⟨(name', item), List.mem_flatMap.mpr ⟨feature, hfeature, hchild⟩, ?_⟩
  cases name' with
  | none => cases hstring
  | some name' =>
      cases item with
      | string w =>
          obtain ⟨rfl, rfl⟩ := Prod.mk.inj (Option.some.inj hstring)
          exact congrArg some (Prod.mk.inj hpair).1
      | null | bool | number | array | object => cases hstring

theorem HoldsOnly.rfcStashRetrieveParams {keys : Str → Prop} {st : St}
    (h : HoldsOnly keys st.dev.rfcStore) (env : Env) (hkey : keys rfcAccountIdKeyStr) :
    HoldsOnly keys (rfcStashRetrieveParams env st).dev.rfcStore := by
  have hset := h.set env hkey st.proc.stashAccountId
  unfold RfcMgr.rfcStashRetrieveParams
  split
  · split
    next hsuccess => rwa [hsuccess] at hset
    next hfailed => rwa [hfailed] at hset
  · exact h

/-- The clearing leaves control entries only. -/
theorem holdsOnly_clearDB {env : Env} (hclears : ClearsStore env.hostif) (st : St) :
    HoldsOnly (· ∈ controlKeys) (clearDB env st).dev.rfcStore := by
  have haccount : rfcAccountIdKeyStr ∈ controlKeys := by simp [controlKeys]
  have hbootstrap : bootstrapClearDBKey ∈ controlKeys := by simp [controlKeys]
  have htime : configChangeTimeKey ∈ controlKeys := by simp [controlKeys]
  have hempty : HoldsOnly (· ∈ controlKeys)
      (St.set env ((rfcStashStoreParams env st).onDev fun dev => dev.overwrite tr181StoreFile [])
        clearDBKey clearValue).2.dev.rfcStore := by
    intro key hkey
    exact absurd (congrFun (hclears _ clearValue) key) hkey
  have hmarked := (hempty.set env hbootstrap clearValue).set env htime env.configChangeTime
  simp only [clearDB]
  exact hmarked.rfcStashRetrieveParams env haccount

theorem holdsOnly_clearDBEnd {keys : Str → Prop} {st : St} (h : HoldsOnly keys st.dev.rfcStore)
    (env : Env) (hkeys : ∀ key ∈ controlKeys, keys key) :
    HoldsOnly keys (clearDBEnd env st).dev.rfcStore := by
  have hend := h.set env (hkeys clearDBEndKey (by simp [controlKeys])) clearValue
  have hbootstrap := hend.set env (hkeys bootstrapClearDBEndKey (by simp [controlKeys])) clearValue
  exact hbootstrap.set env (hkeys reloadCacheKey (by simp [controlKeys])) clearValue

theorem Device.append_rfcStore (dev : Device) (filename data : Str) :
    (dev.append filename data).rfcStore = dev.rfcStore := by
  unfold append
  split
  · rfl
  · rfl

theorem writeFeatures_rfcStore (features : List Json) (rfcList : Str) (dev : Device) :
    (writeFeatures features rfcList dev).2.rfcStore = dev.rfcStore := by
  induction features generalizing rfcList dev with
  | nil => rfl
  | cons feature features ih =>
      have hone : (writeFeature rfcList dev feature).2.rfcStore = dev.rfcStore := by
        unfold writeFeature
        split
        · rfl
        · split
          · exact Device.append_rfcStore ..
          · exact (Device.append_rfcStore ..).trans (Device.append_rfcStore ..)
      exact (ih _ _).trans hone

/-- What `processXconfResponseConfigDataPart` leaves in the store. -/
theorem configDataPart_noStale {env : Env} (hclears : ClearsStore env.hostif) {features : List Json}
    {st t : St} (hmap : st.proc.rfcKeyAndValueMap = ∅)
    (hpart : processXconfResponseConfigDataPart env features st = .ok () t) :
    if storedEntries (visited features) = [] then t.dev.rfcStore = st.dev.rfcStore
    else NoStale features t.dev.rfcStore := by
  have hfilled : ∃ map, createConfigDataValueMap features st.proc.rfcKeyAndValueMap = some map := by
    cases hcreate : createConfigDataValueMap features st.proc.rfcKeyAndValueMap with
    | some map => exact ⟨map, rfl⟩
    | none =>
        simp only [processXconfResponseConfigDataPart, St.log_proc, hcreate] at hpart
        cases hpart
  obtain ⟨map, hfilled⟩ := hfilled
  rw [configDataPart_eq hfilled] at hpart
  rw [hmap] at hfilled
  have hempty : map.isEmpty = true ↔ storedEntries (visited features) = [] := by
    obtain ⟨-, rfl⟩ := createConfigDataValueMap_eq_some.mp hfilled
    exact isEmpty_insertAll_empty
  by_cases hnone : storedEntries (visited features) = []
  · rw [if_pos (hempty.mpr hnone)] at hpart
    rw [if_pos hnone]
    cases hpart
    rfl
  · rw [if_neg (mt hempty.mp hnone)] at hpart
    rw [if_neg hnone]
    obtain ⟨vars, s, hloop, hdone⟩ := Exec.bind_eq_ok.mp hpart
    cases hdone
    have hcleared : NoStale features (clearDB env (filled map st)).dev.rfcStore :=
      (holdsOnly_clearDB hclears _).mono fun _ => .inr
    have hkeys : ∀ pair ∈ map.toList, pair.1 ∈ configKeys features ∨ pair.1 ∈ controlKeys :=
      fun pair hpair => .inl <| mem_configKeys_of_mem_storedEntries
        (mem_storedEntries_of_filled hfilled hpair)
    have hset := hcleared.applyParams env hkeys ⟨[], []⟩
    rw [hloop, Exec.state_ok] at hset
    have hsame : (s.onDev (updateTR181File vars.paramList)).dev.rfcStore = s.dev.rfcStore :=
      Device.append_rfcStore ..
    have hlisted : NoStale features (s.onDev (updateTR181File vars.paramList)).dev.rfcStore := by
      rw [hsame]
      exact hset
    exact holdsOnly_clearDBEnd hlisted env fun _ => .inr

/-- **When no stale parameter survives an accepted response.** A response without a parameter before
its first feature without configData leaves the store as it is. -/
theorem noStale_iff {env : Env} (hclears : ClearsStore env.hostif) {body : Body}
    {features : List Json} (hfeatures : body.features = some features) {st t : St}
    (hmap : st.proc.rfcKeyAndValueMap = ∅) (happly : processJsonResponse env body st = .ok .success t) :
    NoStale features t.dev.rfcStore ↔
      storedEntries (visited features) ≠ [] ∨ NoStale features st.dev.rfcStore := by
  have hstep := processJsonResponse_step env body st
  rw [happly] at hstep
  cases hstep with
  | @applied features' s hfeatures' hpart =>
      obtain rfl : features = features' := Option.some.inj (hfeatures.symm.trans hfeatures')
      have hstore : (featuresWritten features body st).dev.rfcStore = st.dev.rfcStore :=
        writeFeatures_rfcStore features [] st.dev
      have hstart : (featuresWritten features body st).proc.rfcKeyAndValueMap = ∅ := hmap
      have hleft := configDataPart_noStale hclears hstart hpart
      change NoStale features s.dev.rfcStore ↔ _
      by_cases hnone : storedEntries (visited features) = []
      · rw [if_pos hnone, hstore] at hleft
        rw [hleft]
        simp [hnone]
      · rw [if_neg hnone] at hleft
        simp [hnone, hleft]

theorem clearsStore_willing : ClearsStore .willing := by
  intro dev value
  have hname : clearDBKey.getLast? ≠ some '.' := by decide
  have haccepts : dev.Accepts .willing clearDBKey value := by
    refine ⟨?_, rfl⟩
    rw [Device.getRFCParameter, if_neg hname]
    exact fun h => by cases h
  rw [Device.setRFCProperty_of_accepts _ _ _ _ haccepts, Device.storeAfterSet, if_pos rfl]

/-- A device that an earlier response has given a parameter. -/
def St.staled : St :=
  { St.fresh with dev := { Device.blank with
      rfcStore := Function.update (fun _ => none) "Device.X.Old".toList (some "1".toList) } }

/-- A response with a parameter clears the store first. -/
theorem noStale_iff_alone : ∃ t, processJsonResponse .plain (responseBody alone) .staled = .ok .success t ∧
    NoStale alone t.dev.rfcStore := by
  have happly : (processJsonResponse .plain (responseBody alone) .staled).value? = some .success := by
    decide +kernel
  have hfeatures : (responseBody alone).features = some alone := rfl
  have hentries : storedEntries (visited alone) ≠ [] := by decide
  have hkept := (noStale_iff clearsStore_willing hfeatures rfl
    (Exec.eq_ok_of_value? happly)).mpr (.inl hentries)
  exact ⟨_, Exec.eq_ok_of_value? happly, hkept⟩

/-- The features of this response have no configData at all. -/
def withoutConfigData : List Json := [.object ((plainFeature "A".toList []).take 3)]

theorem not_noStale : ¬ ∀ env body features st t, ClearsStore (Env.hostif env) →
    Body.features body = some features → st.proc.rfcKeyAndValueMap = ∅ →
    processJsonResponse env body st = .ok .success t → NoStale features t.dev.rfcStore := by
  intro h
  obtain ⟨happly, hkept, hold⟩ : (processJsonResponse .plain (responseBody withoutConfigData)
        .staled).value? = some .success ∧
      (processJsonResponse .plain (responseBody withoutConfigData)
        .staled).state.dev.rfcStore "Device.X.Old".toList ≠ none ∧
      ¬ ("Device.X.Old".toList ∈ configKeys withoutConfigData ∨
        "Device.X.Old".toList ∈ controlKeys) := by
    decide +kernel
  have hnoStale := h .plain (responseBody withoutConfigData) withoutConfigData .staled _
    clearsStore_willing rfl rfl (Exec.eq_ok_of_value? happly)
  exact hold (hnoStale "Device.X.Old".toList hkept)

end RfcMgr
