import RfcMgr.StaleParams

/-! The account in the RFC store through an apply step: it is read and stashed, the store is cleared,
the stash is written back, and the parameters of the response are set. Whether a valid account that
the response does not replace survives this depends on the firmware and on the answers of the hostif. -/

namespace RfcMgr

/-! ### What the account depends on -/

/-- The account that `rfcStashStoreParams` stashes, when its read gives `read`. -/
def stashed (p : Processor) (read : Option Str) : Str :=
  match read with
  | none => p.accountId
  | some account =>
      if account = [] ∨ p.lastFirmware ≠ p.firmwareVersion then unknownStr else account

section Account

variable (h : Hostif) (p : Processor) (dev : Device)

/-- The device once the account is read for the stash. -/
def afterStash : Device := (dev.readRFCProperty h rfcAccountIdKeyStr 1024).2

def stashOf : Str := stashed p (dev.readRFCProperty h rfcAccountIdKeyStr 1024).1

/-- The stash is written back. -/
def Restoring : Prop := stashOf h p dev ≠ [] ∧ stashOf h p dev ≠ unknownStr

instance : Decidable (Restoring h p dev) := inferInstanceAs (Decidable (_ ∧ _))

/-- The stash is written back and taken. -/
def Restored : Prop :=
  Restoring h p dev ∧ (afterStash h dev).Accepts h rfcAccountIdKeyStr (stashOf h p dev)

instance : Decidable (Restored h p dev) := inferInstanceAs (Decidable (_ ∧ _))

/-- The calls of the account up to the loop over the parameters. -/
def beforeLoop : Device :=
  if Restoring h p dev then
    ((afterStash h dev).setRFCProperty h rfcAccountIdKeyStr (stashOf h p dev)).2
  else afterStash h dev

/-- The calls of `ClearDB` up to the loop. -/
def afterClear : Device := (dev.setRFCProperty h clearDBKey clearValue).2

/-- A value of the response is set as the account: it is not empty, and when it is some `Unknown` the
read before it fails. -/
def Replaces (value : Str) : Prop :=
  value ≠ [] ∧
    (stringCaseCompare value unknownStr = true →
      (dev.readRFCProperty h rfcAccountIdKeyStr 4096).1 = none) ∧
    (dev.readRFCProperty h rfcAccountIdKeyStr 4096).2.Accepts h rfcAccountIdKeyStr value

/-- The response itself clears the store. -/
def Wipes (value : Str) : Prop :=
  value ≠ [] ∧ (dev.readRFCProperty h clearDBKey 4096).2.Accepts h clearDBKey value

/-- What it takes to keep the account, for an apply step that starts with `p` and `dev` and sets the
parameters of `map`. -/
structure KeepsAccount (map : ConfigMap) (account : Str) : Prop where
  restored : Restored h p dev → stashOf h p dev = account
  notCleared : ¬ Restored h p dev → ¬ dev.Accepts h clearDBKey clearValue
  notWiped : ∀ value, map[clearDBKey]? = some value → ¬ Wipes h (afterClear h dev) value
  notReplaced : ∀ value, map[rfcAccountIdKeyStr]? = some value →
    ¬ Replaces h (beforeLoop h p dev) value

end Account

/-! ### The loop over the parameters -/

theorem account_ne_clearDBKey : rfcAccountIdKeyStr ≠ clearDBKey := toList_ne (by simp)

theorem account_notMem_requestKeys : rfcAccountIdKeyStr ∉ requestKeys := by
  simp only [requestKeys, List.mem_cons, List.not_mem_nil, or_false, not_or]
  exact ⟨toList_ne (by simp), toList_ne (by simp), toList_ne (by simp)⟩

theorem clearDBKey_notMem_requestKeys : clearDBKey ∉ requestKeys := by
  simp only [requestKeys, List.mem_cons, List.not_mem_nil, or_false, not_or]
  exact ⟨toList_ne (by simp), toList_ne (by simp), toList_ne (by simp)⟩

theorem validated_of_ne {env : Env} {key value : Str} {st : St} (hne : key ≠ bootstrapXconfUrlKeyStr) :
    validated env key value st = .ok .success st := if_neg hne

theorem writes_of_ne {env : Env} {key value : Str} {vars : ApplyVars} {st : St}
    (hne : key ≠ bootstrapXconfUrlKeyStr) :
    Writes env key value vars st ↔ (paramCheck env key value vars st).changed = true ∧ value ≠ [] ∧
      (st.dev.readRFCProperty env.hostif key 4096).2.Accepts env.hostif key value := by
  rw [Writes, validated_of_ne hne]
  simp only [Exec.value?, Exec.state_ok, true_and]
  rfl

theorem paramCheck_account (env : Env) (value : Str) (vars : ApplyVars) (st : St) :
    (paramCheck env rfcAccountIdKeyStr value vars st).changed = true ↔
      (stringCaseCompare value unknownStr = true →
        (st.dev.readRFCProperty env.hostif rfcAccountIdKeyStr 4096).1 = none) := by
  have hsame := contains_self rfcAccountIdKeyStr
  have hread : (st.dev.readRFCProperty env.hostif rfcAccountIdKeyStr 4096).1 =
      (answers env rfcAccountIdKeyStr value st).read := rfl
  rw [paramCheck, hread]
  generalize answers env rfcAccountIdKeyStr value st = ans
  cases hread : ans.read with
  | none => simp [checkOf, hread]
  | some current =>
      simp only [checkOf, hread, checkAgainst, contains_rfcAccountIdKeyStr, hsame, Bool.not_true,
        Bool.and_false, Bool.false_eq_true, if_false, Bool.true_and, reduceCtorEq, imp_false]
      split
      next hunknown => simp [hunknown]
      next hknown => simp [hknown]

theorem paramCheck_clearDB (env : Env) (value : Str) (vars : ApplyVars) (st : St) :
    (paramCheck env clearDBKey value vars st).changed = true := by
  have hinside : contains clearDBKey ".X_RDKCENTRAL-COM_RFC.".toList = true :=
    contains_toList "Device.DeviceInfo" "Control.ClearDB" (by simp)
  have hother : contains clearDBKey rfcAccountIdKeyStr = false := by decide +kernel
  rw [paramCheck]
  generalize answers env clearDBKey value st = ans
  cases hread : ans.read with
  | none => simp only [checkOf, hread]
  | some current =>
      simp only [checkOf, hread, checkAgainst, hinside, hother, Bool.not_true, Bool.and_false,
        Bool.false_eq_true, if_false, Bool.false_and]

theorem writes_account_iff {env : Env} {value : Str} {vars : ApplyVars} {st : St} :
    Writes env rfcAccountIdKeyStr value vars st ↔ Replaces env.hostif st.dev value := by
  have hne : rfcAccountIdKeyStr ≠ bootstrapXconfUrlKeyStr := toList_ne (by simp)
  rw [writes_of_ne hne, paramCheck_account, Replaces, and_left_comm]

theorem writes_clearDB_iff {env : Env} {value : Str} {vars : ApplyVars} {st : St} :
    Writes env clearDBKey value vars st ↔ Wipes env.hostif st.dev value := by
  have hne : clearDBKey ≠ bootstrapXconfUrlKeyStr := toList_ne (by simp)
  rw [writes_of_ne hne, Wipes]
  exact and_iff_right (paramCheck_clearDB env value vars st)

/-- The pass over a parameter, started with `dev`, loses the account. -/
def Spoils (h : Hostif) (dev : Device) (pair : Str × Str) : Prop :=
  (pair.1 = rfcAccountIdKeyStr ∧ Replaces h dev pair.2) ∨
    (pair.1 = clearDBKey ∧ Wipes h dev pair.2)

theorem replaces_congr {h : Hostif} {dev dev' : Device} (hcalls : dev.SameCalls rfcAccountIdKeyStr dev')
    (value : Str) : Replaces h dev' value ↔ Replaces h dev value := by
  rw [Replaces, Replaces, hcalls.read_eq_none, (hcalls.read 4096).accepts]

theorem wipes_congr {h : Hostif} {dev dev' : Device} (hcalls : dev.SameCalls clearDBKey dev')
    (value : Str) : Wipes h dev' value ↔ Wipes h dev value := by
  rw [Wipes, Wipes, (hcalls.read 4096).accepts]

theorem spoils_congr {h : Hostif} {dev dev' : Device} {pair : Str × Str}
    (hcalls : pair.1 ∉ requestKeys → dev.SameCalls pair.1 dev') :
    Spoils h dev' pair ↔ Spoils h dev pair := by
  refine or_congr (and_congr_right fun hkey => ?_) (and_congr_right fun hkey => ?_)
  · rw [hkey] at hcalls
    exact replaces_congr (hcalls account_notMem_requestKeys) pair.2
  · rw [hkey] at hcalls
    exact wipes_congr (hcalls clearDBKey_notMem_requestKeys) pair.2

/-- A pass over one parameter calls no other, those of a request apart. -/
theorem applyParam_calls (env : Env) {pair : Str × Str} {key : Str} (hne : key ≠ pair.1)
    (hkey : key ∉ requestKeys) (vars : ApplyVars) (st : St) :
    st.dev.SameCalls key (applyParam env pair vars st).state.dev := by
  have hread : st.dev.SameCalls key (paramRead env pair.1 st).dev :=
    .read_of_ne env.hostif st.dev hne 4096
  have hvalidated : st.dev.SameCalls key
      (validated env pair.1 pair.2 (paramRead env pair.1 st)).state.dev := by
    unfold validated
    split
    · exact hread.trans ((validates_processXconfUrl env pair.2 _).calls key hkey)
    · exact hread
  have hstep := applyParam_step env pair.1 pair.2 vars st
  change ParamStep _ _ _ _ _ (applyParam env pair vars st) at hstep
  generalize applyParam env pair vars st = out at hstep ⊢
  cases hstep with
  | unchanged | rejected => exact hread
  | crashed _ _ hend | invalid _ _ hend =>
      rw [hend] at hvalidated
      exact hvalidated
  | written _ _ hend =>
      rw [hend] at hvalidated
      exact hvalidated.trans (.set_of_ne env.hostif _ hne pair.2)

/-- A pass keeps the account unless it spoils it. -/
theorem applyParam_keeps_iff (env : Env) {pair : Str × Str} {account : Str}
    (hother : pair.1 = rfcAccountIdKeyStr → pair.2 ≠ account) (vars : ApplyVars) (st : St) :
    (applyParam env pair vars st).state.dev.rfcStore rfcAccountIdKeyStr = some account ↔
      st.dev.rfcStore rfcAccountIdKeyStr = some account ∧ ¬ Spoils env.hostif st.dev pair := by
  obtain ⟨key, value⟩ := pair
  by_cases haccount : key = rfcAccountIdKeyStr
  · subst haccount
    have hspoils : Spoils env.hostif st.dev (rfcAccountIdKeyStr, value) ↔
        Writes env rfcAccountIdKeyStr value vars st := by
      simp [Spoils, writes_account_iff, account_ne_clearDBKey]
    rw [hspoils]
    by_cases hwrites : Writes env rfcAccountIdKeyStr value vars st
    · rw [applyParam_of_writes hwrites, Device.storeAfterSet, if_neg account_ne_clearDBKey,
        Function.update_self]
      simp [hwrites, hother rfl]
    · rw [applyParam_of_not_writes hwrites]
      simp [hwrites]
  by_cases hclear : key = clearDBKey
  · subst hclear
    have hspoils : Spoils env.hostif st.dev (clearDBKey, value) ↔
        Writes env clearDBKey value vars st := by
      simp [Spoils, writes_clearDB_iff, account_ne_clearDBKey.symm]
    rw [hspoils]
    by_cases hwrites : Writes env clearDBKey value vars st
    · rw [applyParam_of_writes hwrites, Device.storeAfterSet, if_pos rfl]
      simp [hwrites]
    · rw [applyParam_of_not_writes hwrites]
      simp [hwrites]
  have hspoils : ¬ Spoils env.hostif st.dev (key, value) := by simp [Spoils, haccount, hclear]
  have hsame : (applyParam env (key, value) vars st).state.dev.rfcStore rfcAccountIdKeyStr =
      st.dev.rfcStore rfcAccountIdKeyStr := by
    by_cases hwrites : Writes env key value vars st
    · rw [applyParam_of_writes hwrites, Device.storeAfterSet, if_neg hclear]
      exact Function.update_of_ne (Ne.symm haccount) ..
    · rw [applyParam_of_not_writes hwrites]
  rw [hsame]
  simp [hspoils]

/-- The loop keeps the account unless one of its passes spoils it. -/
theorem applyParams_keeps_iff {env : Env} {pairs : List (Str × Str)} {account : Str}
    (hdistinct : pairs.Pairwise fun a b => a.1 ≠ b.1)
    (hother : ∀ pair ∈ pairs, pair.1 = rfcAccountIdKeyStr → pair.2 ≠ account)
    {vars vars' : ApplyVars} {st t : St}
    (hloop : Exec.forList (applyParam env) pairs vars st = .ok vars' t) :
    t.dev.rfcStore rfcAccountIdKeyStr = some account ↔
      st.dev.rfcStore rfcAccountIdKeyStr = some account ∧
        ∀ pair ∈ pairs, ¬ Spoils env.hostif st.dev pair := by
  induction pairs generalizing vars st with
  | nil =>
      cases hloop
      simp
  | cons pair pairs ih =>
      obtain ⟨hhead, htail⟩ := List.pairwise_cons.mp hdistinct
      rw [Exec.forList_cons] at hloop
      obtain ⟨vars₁, st₁, hpass, hrest⟩ := Exec.bind_eq_ok.mp hloop
      have hkeeps := applyParam_keeps_iff env (hother pair List.mem_cons_self) vars st
      rw [hpass, Exec.state_ok] at hkeeps
      have hspoils : ∀ later ∈ pairs, (Spoils env.hostif st₁.dev later ↔
          Spoils env.hostif st.dev later) := by
        intro later hlater
        apply spoils_congr
        intro hkey
        have hcalls := applyParam_calls env (Ne.symm (hhead later hlater)) hkey vars st
        rwa [hpass, Exec.state_ok] at hcalls
      have hrests := ih htail (fun later hlater => hother later (List.mem_cons_of_mem pair hlater)) hrest
      calc t.dev.rfcStore rfcAccountIdKeyStr = some account
          ↔ st₁.dev.rfcStore rfcAccountIdKeyStr = some account ∧
              ∀ later ∈ pairs, ¬ Spoils env.hostif st₁.dev later := hrests
        _ ↔ (st.dev.rfcStore rfcAccountIdKeyStr = some account ∧ ¬ Spoils env.hostif st.dev pair) ∧
              ∀ later ∈ pairs, ¬ Spoils env.hostif st.dev later :=
            and_congr hkeeps (forall₂_congr fun later hlater => not_congr (hspoils later hlater))
        _ ↔ st.dev.rfcStore rfcAccountIdKeyStr = some account ∧
              ∀ later ∈ pair :: pairs, ¬ Spoils env.hostif st.dev later := by
            rw [and_assoc, List.forall_mem_cons]

/-! ### Stash, clear and restore -/

theorem rfcStashStoreParams_stash (env : Env) (st : St) :
    (rfcStashStoreParams env st).proc.stashAccountId = stashOf env.hostif st.proc st.dev := by
  rw [rfcStashStoreParams, St.onProc_proc, getAccountID, stashOf, St.read]
  generalize st.dev.readRFCProperty env.hostif rfcAccountIdKeyStr 1024 = result
  obtain ⟨read, dev⟩ := result
  cases read with
  | none => rfl
  | some account => rfl

theorem rfcStashStoreParams_dev (env : Env) (st : St) :
    (rfcStashStoreParams env st).dev = afterStash env.hostif st.dev :=
  (getAccountID_frame env st).2.1

/-- The state in which `clearDB` retrieves the stash. -/
def emptied (env : Env) (st : St) : St :=
  let st := (rfcStashStoreParams env st).onDev fun dev => dev.overwrite tr181StoreFile []
  let st := (st.set env clearDBKey clearValue).2
  let st := (st.set env bootstrapClearDBKey clearValue).2
  (st.set env configChangeTimeKey env.configChangeTime).2

theorem clearDB_eq (env : Env) (st : St) :
    clearDB env st = rfcStashRetrieveParams env (emptied env st) := rfl

/-- The other parameters that `clearDB` and `clearDBEnd` set. -/
def markerKeys : List Str :=
  [bootstrapClearDBKey, configChangeTimeKey, clearDBEndKey, bootstrapClearDBEndKey, reloadCacheKey]

theorem ne_of_mem_markerKeys : ∀ key ∈ markerKeys, rfcAccountIdKeyStr ≠ key ∧ clearDBKey ≠ key := by
  intro key hkey
  simp only [markerKeys, List.mem_cons, List.not_mem_nil, or_false] at hkey
  rcases hkey with rfl | rfl | rfl | rfl | rfl
  · exact ⟨toList_ne (by simp), toList_ne (by simp)⟩
  · exact ⟨toList_ne (by simp), toList_ne (by simp)⟩
  · exact ⟨toList_ne (by simp), toList_ne (by simp)⟩
  · exact ⟨toList_ne (by simp), toList_ne (by simp)⟩
  · exact ⟨toList_ne (by simp), toList_ne (by simp)⟩

theorem bootstrap_mem_markerKeys : bootstrapClearDBKey ∈ markerKeys := by simp [markerKeys]
theorem time_mem_markerKeys : configChangeTimeKey ∈ markerKeys := by simp [markerKeys]

section Marker

variable (env : Env) (st : St) {key : Str} (hkey : key ∈ markerKeys) (value : Str)

include hkey

/-- A marker touches neither the account nor `ClearDB`. -/
theorem set_marker_account :
    (st.set env key value).2.dev.rfcStore rfcAccountIdKeyStr =
      st.dev.rfcStore rfcAccountIdKeyStr := by
  obtain ⟨haccount, hclear⟩ := ne_of_mem_markerKeys key hkey
  obtain hsame | hset := Device.setRFCProperty_rfcStore env.hostif st.dev key value
  · exact congrFun hsame _
  · refine (congrFun hset _).trans ?_
    rw [Device.storeAfterSet, if_neg hclear.symm, Function.update_of_ne haccount]

theorem set_marker_calls :
    st.dev.SameCalls rfcAccountIdKeyStr (st.set env key value).2.dev ∧
      st.dev.SameCalls clearDBKey (st.set env key value).2.dev := by
  obtain ⟨haccount, hclear⟩ := ne_of_mem_markerKeys key hkey
  exact ⟨.set_of_ne env.hostif st.dev haccount value, .set_of_ne env.hostif st.dev hclear value⟩

end Marker

theorem emptied_stash (env : Env) (st : St) :
    (emptied env st).proc.stashAccountId = stashOf env.hostif st.proc st.dev :=
  rfcStashStoreParams_stash env st

/-- The calls of the account are those of the stash, and the calls of `ClearDB` the one that clears. -/
theorem emptied_calls (env : Env) (st : St) :
    (afterStash env.hostif st.dev).SameCalls rfcAccountIdKeyStr (emptied env st).dev ∧
      (afterClear env.hostif st.dev).SameCalls clearDBKey (emptied env st).dev := by
  have htouch : ∀ key, (afterStash env.hostif st.dev).SameCalls key
      ((rfcStashStoreParams env st).onDev fun dev => dev.overwrite tr181StoreFile []).dev := by
    intro key
    rw [St.onDev_dev, rfcStashStoreParams_dev]
    exact ⟨rfl, rfl⟩
  have hread : st.dev.SameCalls clearDBKey (afterStash env.hostif st.dev) :=
    .read_of_ne env.hostif st.dev account_ne_clearDBKey.symm 1024
  simp only [emptied]
  generalize (rfcStashStoreParams env st).onDev _ = st₁ at htouch ⊢
  obtain ⟨haccount, hclear⟩ := set_marker_calls env (st₁.set env clearDBKey clearValue).2
    bootstrap_mem_markerKeys clearValue
  obtain ⟨haccount', hclear'⟩ := set_marker_calls env
    (St.set env (st₁.set env clearDBKey clearValue).2 bootstrapClearDBKey clearValue).2
    time_mem_markerKeys env.configChangeTime
  constructor
  · have hset : st₁.dev.SameCalls rfcAccountIdKeyStr (st₁.set env clearDBKey clearValue).2.dev :=
      .set_of_ne env.hostif st₁.dev account_ne_clearDBKey clearValue
    exact (((htouch rfcAccountIdKeyStr).trans hset).trans haccount).trans haccount'
  · have hset : (afterClear env.hostif st.dev).SameCalls clearDBKey
        (st₁.set env clearDBKey clearValue).2.dev := (hread.trans (htouch clearDBKey)).set clearValue
    exact (hset.trans hclear).trans hclear'

theorem emptied_account (env : Env) (st : St) :
    (emptied env st).dev.rfcStore rfcAccountIdKeyStr =
      if st.dev.Accepts env.hostif clearDBKey clearValue then none
      else st.dev.rfcStore rfcAccountIdKeyStr := by
  have hread : st.dev.SameCalls clearDBKey (afterStash env.hostif st.dev) :=
    .read_of_ne env.hostif st.dev account_ne_clearDBKey.symm 1024
  have hstore : (afterStash env.hostif st.dev).rfcStore = st.dev.rfcStore :=
    Device.readRFCProperty_rfcStore ..
  simp only [emptied]
  rw [set_marker_account env _ time_mem_markerKeys, set_marker_account env _ bootstrap_mem_markerKeys]
  have haccepts : ((rfcStashStoreParams env st).onDev fun dev =>
      dev.overwrite tr181StoreFile []).dev.Accepts env.hostif clearDBKey clearValue ↔
        st.dev.Accepts env.hostif clearDBKey clearValue := by
    rw [St.onDev_dev, rfcStashStoreParams_dev]
    exact hread.accepts clearValue
  have hstart : ((rfcStashStoreParams env st).onDev fun dev =>
      dev.overwrite tr181StoreFile []).dev.rfcStore = st.dev.rfcStore := by
    rw [St.onDev_dev, rfcStashStoreParams_dev]
    exact hstore
  generalize (rfcStashStoreParams env st).onDev _ = st₁ at haccepts hstart ⊢
  split
  next hclears =>
    refine (congrFun (Device.setRFCProperty_of_accepts _ _ _ _ (haccepts.mpr hclears)) _).trans ?_
    rw [Device.storeAfterSet, if_pos rfl]
  next hrefused =>
    refine (congrFun (Device.setRFCProperty_of_not_accepts _ _ _ _ (mt haccepts.mp hrefused)) _).trans ?_
    rw [hstart]

/-- **What `clearDB` leaves of the account.** -/
theorem clearDB_account (env : Env) (st : St) :
    (beforeLoop env.hostif st.proc st.dev).SameCalls rfcAccountIdKeyStr (clearDB env st).dev ∧
      (afterClear env.hostif st.dev).SameCalls clearDBKey (clearDB env st).dev ∧
      (clearDB env st).dev.rfcStore rfcAccountIdKeyStr =
        if Restored env.hostif st.proc st.dev then some (stashOf env.hostif st.proc st.dev)
        else if st.dev.Accepts env.hostif clearDBKey clearValue then none
        else st.dev.rfcStore rfcAccountIdKeyStr := by
  have hstash := emptied_stash env st
  obtain ⟨haccount, hclear⟩ := emptied_calls env st
  have hemptied := emptied_account env st
  rw [clearDB_eq]
  generalize emptied env st = st₁ at hstash haccount hclear hemptied ⊢
  rw [← hemptied]
  by_cases hrestoring : Restoring env.hostif st.proc st.dev
  · have hset : (rfcStashRetrieveParams env st₁).dev =
        (st₁.dev.setRFCProperty env.hostif rfcAccountIdKeyStr
          (stashOf env.hostif st.proc st.dev)).2 := by
      have hattempt : st₁.proc.stashAccountId ≠ [] ∧ st₁.proc.stashAccountId ≠ unknownStr := by
        rw [hstash]
        exact hrestoring
      rw [rfcStashRetrieveParams, if_pos hattempt, ← hstash]
      simp only [St.set]
      generalize st₁.dev.setRFCProperty env.hostif rfcAccountIdKeyStr _ = result
      obtain ⟨status, dev⟩ := result
      cases status with
      | success => rfl
      | failure | errDefaultValue | other => rfl
    rw [hset, beforeLoop, if_pos hrestoring]
    refine ⟨haccount.set _, hclear.trans (.set_of_ne _ _ account_ne_clearDBKey.symm _), ?_⟩
    have haccepts := haccount.accepts (H := env.hostif) (stashOf env.hostif st.proc st.dev)
    by_cases hrestored : Restored env.hostif st.proc st.dev
    · rw [if_pos hrestored, Device.setRFCProperty_of_accepts _ _ _ _ (haccepts.mpr hrestored.2),
        Device.storeAfterSet, if_neg account_ne_clearDBKey, Function.update_self]
    · have hrefused := mt haccepts.mp fun h => hrestored ⟨hrestoring, h⟩
      rw [if_neg hrestored, Device.setRFCProperty_of_not_accepts _ _ _ _ hrefused]
  · have hkept : rfcStashRetrieveParams env st₁ = st₁ := by
      rw [rfcStashRetrieveParams, if_neg]
      rw [hstash]
      exact hrestoring
    rw [hkept, beforeLoop, if_neg hrestoring, if_neg fun h => hrestoring h.1]
    exact ⟨haccount, hclear, rfl⟩

/-! ### The apply step -/

theorem spoils_toList {h : Hostif} {d : Device} {map : ConfigMap} :
    (∀ pair ∈ map.toList, ¬ Spoils h d pair) ↔
      (∀ value, map[clearDBKey]? = some value → ¬ Wipes h d value) ∧
        ∀ value, map[rfcAccountIdKeyStr]? = some value → ¬ Replaces h d value := by
  simp only [← Std.TreeMap.mem_toList_iff_getElem?_eq_some]
  constructor
  · intro hnone
    exact ⟨fun value hmem hwipes => hnone _ hmem (.inr ⟨rfl, hwipes⟩),
      fun value hmem hreplaces => hnone _ hmem (.inl ⟨rfl, hreplaces⟩)⟩
  · rintro ⟨hwipes, hreplaces⟩ ⟨key, value⟩ hmem (⟨rfl, hspoils⟩ | ⟨rfl, hspoils⟩)
    · exact hreplaces value hmem hspoils
    · exact hwipes value hmem hspoils

theorem loopDone_account (env : Env) (vars : ApplyVars) (st : St) :
    (loopDone env vars st).dev.rfcStore rfcAccountIdKeyStr =
      st.dev.rfcStore rfcAccountIdKeyStr := by
  have hlisted : (st.onDev (updateTR181File vars.paramList)).dev.rfcStore = st.dev.rfcStore :=
    Device.append_rfcStore ..
  simp only [loopDone, clearDBEnd]
  rw [set_marker_account env _ (by simp [markerKeys]), set_marker_account env _ (by simp [markerKeys]),
    set_marker_account env _ (by simp [markerKeys]), hlisted]

/-- **When `processXconfResponseConfigDataPart` keeps an account** that the response does not set. -/
theorem configDataPart_keeps_iff {env : Env} {features : List Json} {map : ConfigMap} {st t : St}
    {account : Str} (hfilled : createConfigDataValueMap features st.proc.rfcKeyAndValueMap = some map)
    (hheld : st.dev.rfcStore rfcAccountIdKeyStr = some account)
    (hother : ∀ value, map[rfcAccountIdKeyStr]? = some value → value ≠ account)
    (hpart : processXconfResponseConfigDataPart env features st = .ok () t) :
    t.dev.rfcStore rfcAccountIdKeyStr = some account ↔
      map.isEmpty = true ∨ KeepsAccount env.hostif st.proc st.dev map account := by
  rw [configDataPart_eq hfilled] at hpart
  by_cases hempty : map.isEmpty = true
  · rw [if_pos hempty] at hpart
    cases hpart
    exact iff_of_true hheld (.inl hempty)
  rw [if_neg hempty] at hpart
  obtain ⟨vars, s, hloop, hdone⟩ := Exec.bind_eq_ok.mp hpart
  cases hdone
  have hdistinct : map.toList.Pairwise fun a b => a.1 ≠ b.1 := by
    refine (Std.TreeMap.distinct_keys_toList (t := map)).imp ?_
    intro a b hne heq
    rw [heq] at hne
    exact hne Std.ReflCmp.compare_self
  have hset : ∀ pair ∈ map.toList, pair.1 = rfcAccountIdKeyStr → pair.2 ≠ account := by
    rintro ⟨key, value⟩ hmem rfl
    exact hother value (Std.TreeMap.mem_toList_iff_getElem?_eq_some.mp hmem)
  obtain ⟨haccount, hclear, hstore⟩ := clearDB_account env (filled map st)
  -- the map is no part of what the account depends on
  change (beforeLoop env.hostif st.proc st.dev).SameCalls _ _ at haccount
  change (afterClear env.hostif st.dev).SameCalls _ _ at hclear
  change _ = if Restored env.hostif st.proc st.dev then some (stashOf env.hostif st.proc st.dev)
    else if st.dev.Accepts env.hostif clearDBKey clearValue then none
    else st.dev.rfcStore rfcAccountIdKeyStr at hstore
  have hcleared : (clearDB env (filled map st)).dev.rfcStore rfcAccountIdKeyStr = some account ↔
      (Restored env.hostif st.proc st.dev → stashOf env.hostif st.proc st.dev = account) ∧
        (¬ Restored env.hostif st.proc st.dev →
          ¬ st.dev.Accepts env.hostif clearDBKey clearValue) := by
    rw [hstore, hheld]
    by_cases hrestored : Restored env.hostif st.proc st.dev
    · simp [hrestored]
    · by_cases haccepts : st.dev.Accepts env.hostif clearDBKey clearValue
      · simp [hrestored, haccepts]
      · simp [hrestored, haccepts]
  rw [loopDone_account, applyParams_keeps_iff hdistinct hset hloop, hcleared, spoils_toList]
  simp only [wipes_congr hclear, replaces_congr haccount]
  constructor
  · rintro ⟨⟨hrestored, hnotCleared⟩, hnotWiped, hnotReplaced⟩
    exact .inr ⟨hrestored, hnotCleared, hnotWiped, hnotReplaced⟩
  · rintro (hnone | hkeeps)
    · exact absurd hnone hempty
    · exact ⟨⟨hkeeps.restored, hkeeps.notCleared⟩, hkeeps.notWiped, hkeeps.notReplaced⟩

/-- An apply step that is logged as successful, with its start. -/
theorem applied_of_mem {env : Env} {body body' : Body} {st : St} {proc : Processor}
    {dev dev' : Device} (hnoFill : ∀ proc dev, .fill proc dev ∉ st.events)
    (hnoApplied : ∀ body dev, .applied body dev ∉ st.events)
    (hfill : .fill proc dev ∈ (processJsonResponse env body st).state.events)
    (happlied : .applied body' dev' ∈ (processJsonResponse env body st).state.events) :
    ∃ features t, body' = body ∧ body.features = some features ∧
      proc = (featuresWritten features body st).proc ∧ dev = (featuresWritten features body st).dev ∧
      processXconfResponseConfigDataPart env features (featuresWritten features body st) = .ok () t ∧
      dev'.rfcStore = t.dev.rfcStore := by
  have hearlier : ∀ t, Grows (Event.OfPart st.proc.rfcKeyAndValueMap body) (st.log (.apply body)) t →
      .applied body' dev' ∉ t.events := by
    intro t hgrows hmem
    have hlogged := hgrows.mem_of_not Event.OfPart.not_applied hmem
    exact hnoApplied body' dev' (by simpa using hlogged)
  have hstep := processJsonResponse_step env body st
  generalize processJsonResponse env body st = out at hfill happlied hstep
  cases hstep with
  | rejected => exact absurd happlied (hearlier _ (.refl _))
  | crashed hfeatures hcrash =>
      have hgrows := (applyFrame_featuresWritten env hfeatures st).events
      rw [hcrash] at hgrows
      exact absurd happlied (hearlier _ hgrows)
  | @applied features t hfeatures hdone =>
      have hgrows := (applyFrame_featuresWritten env hfeatures st).events
      have hstart := grows_configDataPart env features (featuresWritten features body st)
      rw [hdone] at hgrows hstart
      rcases List.mem_append.mp happlied with hmem | hmem
      · exact absurd hmem (hearlier t hgrows)
      obtain ⟨rfl, rfl⟩ := Event.applied.inj (List.mem_singleton.mp hmem)
      rcases List.mem_append.mp hfill with hmem | hmem
      · have hlogged := hstart.mem_of_not (fun ⟨_, h⟩ => h) hmem
        rcases List.mem_append.mp hlogged with hlogged | hlogged
        · have hold : .fill proc dev ∈ st.events := by
            simpa [featuresWritten] using hlogged
          exact absurd hold (hnoFill proc dev)
        · obtain ⟨rfl, rfl⟩ := Event.fill.inj (List.mem_singleton.mp hlogged)
          exact ⟨features, t, rfl, hfeatures, rfl, rfl, hdone, rfl⟩
      · cases List.mem_singleton.mp hmem

/-! ### The run -/

/-- Up to the apply step no pass touches the RFC store. -/
theorem pass_rfcStore {env : Env} {a : Attempt} {s : St} {out : Exec St (Option ReturnCode)}
    (hpass : Pass env a s out) :
    out.state.dev.rfcStore = s.dev.rfcStore ∨
      ∃ p, out = applyResponse env a (preProcessed a (received env a s) p) := by
  obtain ⟨_, _, _, _, hreplied⟩ := asked_replied env a s
  obtain ⟨_, _, _, _, hreceived⟩ := asked_received env a s
  cases hpass with
  | noBuffers | noHashParam => exact .inl (asked_resolved env a s).rfcStore
  | notFound => exact .inl (hreplied.onDev rfl).rfcStore
  | notModified | failed => exact .inl hreplied.rfcStore
  | crashed | redirected | resent => exact .inl hreceived.rfcStore
  | applied p => exact .inr ⟨p, rfl⟩

/-- The head of every pass. -/
structure Untouched (st s : St) : Prop where
  unmixed : Unmixed s
  rfcStore : s.dev.rfcStore = st.dev.rfcStore

theorem untouched_round {env : Env} {a : Attempt} {st s t : St} (h : Untouched st s)
    (hpass : Pass env a s (.ok none t)) : Untouched st t := by
  refine ⟨unmixed_round h.unmixed hpass, ?_⟩
  obtain hstore | ⟨p, hout⟩ := pass_rfcStore hpass
  · exact hstore.trans h.rfcStore
  · exact absurd hout applyResponse_ne_none

/-- The response sets neither the account nor `ClearDB`. -/
def carriesNeither (body : Body) : Bool :=
  (body.features.bind fun features => createConfigDataValueMap features ∅).any fun map =>
    map[rfcAccountIdKeyStr]?.isNone && map[clearDBKey]?.isNone

theorem carriesNeither_spec {body : Body} (h : carriesNeither body = true) :
    ∃ features map, body.features = some features ∧ createConfigDataValueMap features ∅ = some map ∧
      map[rfcAccountIdKeyStr]? = none ∧ map[clearDBKey]? = none := by
  simp only [carriesNeither, Option.any_eq_true, Option.bind_eq_some_iff, Bool.and_eq_true,
    Option.isNone_iff_eq_none] at h
  obtain ⟨map, ⟨features, hfeatures, hmap⟩, haccount, hclear⟩ := h
  exact ⟨features, map, hfeatures, hmap, haccount, hclear⟩

/-- A device with an account, which its last run left under this firmware version. -/
def St.holding (lastFirmware : Str) : St :=
  ⟨{ Processor.fresh with accountId := "4812".toList, lastFirmware := lastFirmware },
    { Device.blank with
      rfcStore := Function.update (fun _ => none) rfcAccountIdKeyStr (some "4812".toList) }, []⟩

def heldRun (lastFirmware : Str) : Exec St ReturnCode :=
  processRuntimeFeatureControlReq .plain (fun _ => .answered 200 (responseBody alone))
    (.holding lastFirmware)

theorem holding_account (lastFirmware : Str) :
    (St.holding lastFirmware).dev.rfcStore rfcAccountIdKeyStr = some "4812".toList := by
  simp only [St.holding, Function.update_self]

end RfcMgr
