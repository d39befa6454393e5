import RfcMgr.SuppressedParams

/-! What the RDKB apply step writes for a response that it rejects, and whether it ends the clearing that
it has started. `Control.ClearDB` is set before the body is parsed and `Control.ClearDBEnd` between the
two passes, but either may also be a parameter of the response. -/

namespace RfcMgr.Rdkb

open CallHistory

/-- The body does not parse, or has no features array. -/
def Rejected (body : Body) : Prop := body.features = none

/-- The step returns `FAILURE` and sets nothing. -/
def ChangesNothing (env : Env) (body : Body) (proc : Processor) : Prop :=
  (processJsonResponseB env body ⟨proc, [], false⟩).value? = some .failure ∧
    ∀ c ∈ responseCalls env body proc, IsRead c

/-- The last set of `Control.ClearDB` has no set of `Control.ClearDBEnd` behind it. -/
def Uncleared (calls : List RbusCall) : Prop :=
  Pending (RbusCall.Sets clearDBKey) (RbusCall.Sets clearDBEndKey) calls

/-- A rejected response changes nothing, and every set of `Control.ClearDB` is followed by one of
`Control.ClearDBEnd`. -/
structure Lawful (env : Env) (body : Body) (proc : Processor) : Prop where
  rejected : Rejected body → ChangesNothing env body proc
  cleared : ∀ earlier value later,
    responseCalls env body proc = earlier ++ .rbusSet clearDBKey value :: later →
      Made (RbusCall.Sets clearDBEndKey) later

/-- The members that the first pass hands to `ParseConfigValue`, each with the `effectiveImmediate` of its
feature. -/
def handed (features : List Json) : List (Bool × Str × Str) :=
  features.flatMap fun feature =>
    match readFeature feature with
    | none => []
    | some rfcObj =>
        match feature.getJsonItem configDataStr with
        | none => []
        | some configData =>
            (configData.children.filterMap stringMember).map fun entry =>
              (rfcObj.effectiveImmediate, entry)

/-- The turn of a member that is handed on. -/
def parseMember (env : Env) (member : Bool × Str × Str) (rfcRebootCronNeeded : Bool) (st : St) :
    Exec St Bool :=
  (parseConfigValue env member.2.1 member.2.2 member.1 rfcRebootCronNeeded st).bind
    fun result st => .ok result.2 st

/-- A member for a parameter that no switch suppresses gets as far as its `rbus_set`: the bus opens, the
switches can be read, and the parameter has a type that is handled and that the value converts to. -/
def ParseSends (env : Env) (paramName configValue : Str) (st : St) : Prop :=
  let opened := st.call .rbusOpen
  let switched := opened.call (.rbusGet wanFailOverSupportKey)
  let unified := switched.call (.rbusGet wanUnificationKey)
  env.rbusOpen st.calls = true ∧ env.rbusGet opened.calls wanFailOverSupportKey ≠ some (.string none) ∧
    env.rbusGet switched.calls wanUnificationKey ≠ some (.string none) ∧
    ∃ paramVal, env.rbusGet unified.calls paramName = some paramVal ∧
      paramVal.paramValue.isSome ∧ (newValue env paramVal.type configValue).isSome

/-- The turn of a member sets `key` in the first pass. -/
def ParsesTo (env : Env) (key : Str) (member : Bool × Str × Str) (_ : Bool) (st : St) : Prop :=
  paramNameOf member.2.1 = key ∧ ParseSends env key member.2.2 st

/-- The turn of a parameter sets `key` in the second pass. -/
def AppliesTo (env : Env) (key : Str) (pair : Str × Str) (vars : ApplyVars) (st : St) : Prop :=
  pair.1 = key ∧ Writes env key pair.2 vars st

/-- A null pointer that is assigned to a string ends the first pass. -/
def FirstPassCrashes (env : Env) (pJson : Json) (proc : Processor) : Prop :=
  ∃ s, firstPass env pJson proc = .crash s

/-- A member of the response has set `Control.ClearDBEnd` in the first pass, and no later one
`Control.ClearDB`. -/
def ClearedByMember (env : Env) (pJson : Json) (proc : Processor) : Prop :=
  Exec.LeavesOn (parseMember env) (ParsesTo env clearDBEndKey) (ParsesTo env clearDBKey)
    (handed ((getRuntimeFeatureControlJSON pJson).getD [])) false
    (setInitial env (St.call ⟨proc, [], false⟩ .rbusOpen))

/-- The second pass sets `Control.ClearDB`, and not `Control.ClearDBEnd` behind it. -/
def ClearedAgain (env : Env) (body : Body) (proc : Processor) : Prop :=
  ∃ features t map, SecondPassFrom env body proc features t ∧
    createConfigDataValueMap features t.proc.rfcKeyAndValueMap = some map ∧
    Exec.LeavesOn (applyParam env) (AppliesTo env clearDBKey) (AppliesTo env clearDBEndKey)
      map.toList ⟨[], []⟩ (withMap map t)

/-! ### What a call does to the clearing -/

theorem clearDBKey_ne_end : clearDBKey ≠ clearDBEndKey := toList_ne (by simp)

theorem not_uncleared_iff {calls : List RbusCall} :
    ¬ Uncleared calls ↔ ∀ earlier value later,
      calls = earlier ++ .rbusSet clearDBKey value :: later → Made (RbusCall.Sets clearDBEndKey) later := by
  constructor
  · intro h earlier value later heq
    by_contra hnot
    exact h ⟨earlier, _, later, heq, rfl, hnot⟩
  · rintro h ⟨earlier, c, later, heq, hset, hnot⟩
    cases c with
    | rbusOpen => exact hset
    | rbusGet _ => exact hset
    | rbusSet key value =>
        obtain rfl : key = clearDBKey := hset
        exact hnot (h earlier value later heq)

/-- Calls that set neither of the two parameters. -/
theorem uncleared_of_others {s t : List RbusCall}
    (h : Extends (fun c => ¬ c.Sets clearDBKey ∧ ¬ c.Sets clearDBEndKey) s t) :
    Uncleared t ↔ Uncleared s := h.pending_iff

theorem uncleared_of_reads {s t : List RbusCall} (h : Extends IsRead s t) :
    Uncleared t ↔ Uncleared s :=
  uncleared_of_others (h.imp fun _ hc => ⟨not_sets_of_isRead hc, not_sets_of_isRead hc⟩)

theorem uncleared_set {calls : List RbusCall} {key : Str} {value : RbusValue} :
    Uncleared (calls ++ [.rbusSet key value]) ↔
      key = clearDBKey ∨ (Uncleared calls ∧ key ≠ clearDBEndKey) := pending_snoc

/-- A turn that sets its parameter at the end, if at all. -/
theorem uncleared_turn {key : Str} {sends : Prop} {s t : List RbusCall}
    (h : ¬ sends ∧ Extends IsRead s t ∨
      sends ∧ ∃ calls new, Extends IsRead s calls ∧ t = calls ++ [.rbusSet key new]) :
    Uncleared t ↔ (key = clearDBKey ∧ sends) ∨ (Uncleared s ∧ ¬ (key = clearDBEndKey ∧ sends)) := by
  rcases h with ⟨hnot, hreads⟩ | ⟨hsends, calls, new, hreads, rfl⟩
  · rw [uncleared_of_reads hreads]
    simp [hnot]
  · rw [uncleared_set, uncleared_of_reads hreads]
    simp [hsends]

/-! ### The second pass -/

theorem uncleared_applyParam (env : Env) (pair : Str × Str) (vars : ApplyVars) (st : St) :
    Uncleared (applyParam env pair vars st).state.calls ↔ AppliesTo env clearDBKey pair vars st ∨
      (Uncleared st.calls ∧ ¬ AppliesTo env clearDBEndKey pair vars st) := by
  have happlies : ∀ key, AppliesTo env key pair vars st ↔
      pair.1 = key ∧ Writes env pair.1 pair.2 vars st := by
    intro key
    refine and_congr_right fun hkey => ?_
    rw [hkey]
  rw [happlies, happlies]
  by_cases hboot : pair.1 = bootstrapXconfUrlKeyStr
  · have hclear : pair.1 ≠ clearDBKey := hboot ▸ toList_ne (by simp)
    have hend : pair.1 ≠ clearDBEndKey := hboot ▸ toList_ne (by simp)
    have hothers := (applyParam_extends env pair vars st).imp fun c hc =>
      (show ¬ c.Sets clearDBKey ∧ ¬ c.Sets clearDBEndKey from
        hc.elim (fun hread => ⟨not_sets_of_isRead hread, not_sets_of_isRead hread⟩)
          fun hset => ⟨fun h => hclear (hset.unique h), fun h => hend (hset.unique h)⟩)
    rw [uncleared_of_others hothers]
    simp [hclear, hend]
  · exact uncleared_turn (applyParam_calls env hboot vars st)

/-- Behind a second pass that starts with nothing to clear. -/
theorem uncleared_secondPass (env : Env) (features : List Json) {t : St} (ht : ¬ Uncleared t.calls) :
    Uncleared (processXconfResponseConfigDataPart env features t).state.calls ↔
      ∃ map, createConfigDataValueMap features t.proc.rfcKeyAndValueMap = some map ∧
        Exec.LeavesOn (applyParam env) (AppliesTo env clearDBKey) (AppliesTo env clearDBEndKey)
          map.toList ⟨[], []⟩ (withMap map t) := by
  cases hmap : createConfigDataValueMap features t.proc.rfcKeyAndValueMap with
  | none =>
      simp only [processXconfResponseConfigDataPart, hmap, Exec.state_crash]
      exact iff_of_false ht (by simp)
  | some map =>
      have hloop := Exec.forList_switches (P := fun s : St => Uncleared s.calls)
        (fun (pair : Str × Str) (_ : pair ∈ map.toList) vars s =>
          uncleared_applyParam env pair vars s) ⟨[], []⟩ (withMap map t)
      have hstart : ¬ Uncleared (withMap map t).calls := ht
      rw [or_iff_left fun h => hstart h.1] at hloop
      simp only [processXconfResponseConfigDataPart, hmap, Option.some.injEq, exists_eq_left']
      rw [← hloop]
      by_cases hempty : map.isEmpty = true
      · have hnil : map.toList = [] := by
          rw [← List.isEmpty_iff, Std.TreeMap.isEmpty_toList]
          exact hempty
        rw [if_pos hempty, hnil]
        exact Iff.rfl
      · rw [if_neg hempty]
        cases Exec.forList (applyParam env) map.toList ⟨[], []⟩ (withMap map t) with
        | ok vars s => exact Iff.rfl
        | crash s => exact Iff.rfl

/-! ### The first pass -/

theorem firstPass_eq (env : Env) (features : List Json) (rfcRebootCronNeeded : Bool) (st : St) :
    Exec.forList (parseFeature env) features rfcRebootCronNeeded st =
      Exec.forList (parseMember env) (handed features) rfcRebootCronNeeded st := by
  apply Exec.forList_flatMap
  intro feature cron s
  unfold parseFeature
  cases readFeature feature with
  | none => rfl
  | some rfcObj =>
      simp only
      cases feature.getJsonItem configDataStr with
      | none => rfl
      | some configData =>
          simp only
          generalize configData.children = children
          induction children generalizing cron s with
          | nil => rfl
          | cons child children ih =>
              rw [Exec.forList_cons, List.filterMap_cons]
              simp only [parseChild]
              cases stringMember child with
              | none => exact ih cron s
              | some entry =>
                  simp only [List.map_cons, Exec.forList_cons]
                  unfold parseMember
                  cases parseConfigValue env entry.1 entry.2 rfcObj.effectiveImmediate cron s with
                  | ok result t => exact ih result.2 t
                  | crash t => rfl

theorem switchText_cases (env : Env) (key : Str) (st : St) :
    env.rbusGet st.calls key = some (.string none) ∧
        switchText env key st = .crash (st.call (.rbusGet key)) ∨
      env.rbusGet st.calls key ≠ some (.string none) ∧
        ∃ text, switchText env key st = .ok text (st.call (.rbusGet key)) := by
  simp only [switchText, St.rbusGet]
  cases hvalue : env.rbusGet st.calls key with
  | none => exact Or.inr ⟨by simp, _, rfl⟩
  | some rbusValue =>
      cases rbusValue with
      | string text =>
          cases text with
          | none => exact Or.inl ⟨rfl, rfl⟩
          | some text => exact Or.inr ⟨by simp, _, rfl⟩
      | boolean | int32 | uint32 | int64 | uint64 | single | double | other =>
          exact Or.inr ⟨by simp, _, rfl⟩

/-- A parameter of the RFC namespace that no switch suppresses. -/
structure Unsuppressed (paramName : Str) : Prop where
  namespaced : contains paramName ".X_RDKCENTRAL-COM_RFC.".toList = true
  notUPnP : paramName ≠ uPnPRefactorKey
  notXupnp : paramName ≠ xupnpKey
  notMode : paramName ≠ selectedOperationalModeKey

/-- The parameter can be set to the value when its turn comes to the set. -/
def Updates (env : Env) (paramName configValue : Str) (st : St) : Prop :=
  ∃ paramVal, env.rbusGet st.calls paramName = some paramVal ∧
    paramVal.paramValue.isSome ∧ (newValue env paramVal.type configValue).isSome

theorem sendUpdate_calls (env : Env) {paramName : Str} (h : Unsuppressed paramName) (configValue : Str)
    (paramType : RbusValueType) (paramValue : Str) (rebootValue rfcRebootCronNeeded : Bool) (st : St) :
    let after := (sendUpdate env paramName configValue paramType paramValue rebootValue
      rfcRebootCronNeeded st).state.calls
    newValue env paramType configValue = none ∧ after = st.calls ∨
      ∃ new, newValue env paramType configValue = some new ∧
        after = st.calls ++ [.rbusSet paramName new] := by
  simp only [sendUpdate, h.namespaced, if_true]
  cases newValue env paramType configValue with
  | none =>
      refine Or.inl ⟨rfl, ?_⟩
      split
      · rfl
      · rfl
  | some new =>
      refine Or.inr ⟨new, rfl, ?_⟩
      split
      · simp only [St.rbusSet]
        split <;> next hreply => exact (Prod.mk.inj hreply).2 ▸ rfl
      · rfl

theorem updateParam_calls (env : Env) {paramName : Str} (h : Unsuppressed paramName) (configValue : Str)
    (rebootValue rfcRebootCronNeeded : Bool) (st : St) :
    let after := (updateParam env paramName configValue rebootValue rfcRebootCronNeeded st).state.calls
    ¬ Updates env paramName configValue st ∧ Extends IsRead st.calls after ∨
      Updates env paramName configValue st ∧ ∃ calls new, Extends IsRead st.calls calls ∧
        after = calls ++ [.rbusSet paramName new] := by
  have hget : Extends IsRead st.calls (st.call (.rbusGet paramName)).calls := .snoc (isRead_rbusGet _)
  simp only [updateParam, St.rbusGet, Updates]
  cases hvalue : env.rbusGet st.calls paramName with
  | none => exact Or.inl ⟨by simp, hget⟩
  | some paramVal =>
      simp only [Option.some.injEq, exists_eq_left']
      split
      next hreply =>
        obtain ⟨hnull, rfl⟩ := Prod.mk.inj hreply
        obtain rfl := Option.some.inj hnull
        exact Or.inl ⟨by simp [RbusValue.paramValue], hget⟩
      next hreply => cases (Prod.mk.inj hreply).1
      next hreply =>
        obtain ⟨hsome, rfl⟩ := Prod.mk.inj hreply
        obtain rfl := Option.some.inj hsome
        cases hparam : paramVal.paramValue with
        | none => exact Or.inl ⟨by simp, hget⟩
        | some paramValue =>
            simp only [Option.isSome_some, true_and]
            obtain ⟨hnone, hafter⟩ | ⟨new, hnew, hafter⟩ := sendUpdate_calls env h configValue
              paramVal.type paramValue rebootValue rfcRebootCronNeeded (st.call (.rbusGet paramName))
            · rw [hafter, hnone]
              exact Or.inl ⟨Bool.false_ne_true, hget⟩
            · rw [hafter, hnew]
              exact Or.inr ⟨rfl, _, new, hget, rfl⟩

/-- **The calls of a member's turn** for a parameter that no switch suppresses. -/
theorem parseConfigValue_calls (env : Env) {configKey : Str} (h : Unsuppressed (paramNameOf configKey))
    (configValue : Str) (rebootValue rfcRebootCronNeeded : Bool) (st : St) :
    let after := (parseConfigValue env configKey configValue rebootValue rfcRebootCronNeeded
      st).state.calls
    ¬ ParseSends env (paramNameOf configKey) configValue st ∧ Extends IsRead st.calls after ∨
      ParseSends env (paramNameOf configKey) configValue st ∧
        ∃ calls new, Extends IsRead st.calls calls ∧
          after = calls ++ [.rbusSet (paramNameOf configKey) new] := by
  have hopen : Extends IsRead st.calls (st.call .rbusOpen).calls := .snoc isRead_rbusOpen
  have hswitched : Extends IsRead st.calls
      ((st.call .rbusOpen).call (.rbusGet wanFailOverSupportKey)).calls :=
    hopen.trans (.snoc (isRead_rbusGet _))
  have hunified : Extends IsRead st.calls (((st.call .rbusOpen).call
      (.rbusGet wanFailOverSupportKey)).call (.rbusGet wanUnificationKey)).calls :=
    hswitched.trans (.snoc (isRead_rbusGet _))
  simp only [parseConfigValue, St.rbusOpen, ParseSends]
  cases hopened : env.rbusOpen st.calls with
  | false => exact Or.inl ⟨fun hsends => Bool.false_ne_true hsends.1, hopen⟩
  | true =>
      simp only [parseOpened, true_and]
      obtain ⟨hnull, htext⟩ | ⟨hread, text, htext⟩ :=
        switchText_cases env wanFailOverSupportKey (st.call .rbusOpen)
      · rw [htext, Exec.bind_crash]
        exact Or.inl ⟨fun hsends => hsends.1 hnull, hswitched⟩
      have hpass : ¬ (text = trueText ∧
          (paramNameOf configKey = uPnPRefactorKey ∨ paramNameOf configKey = xupnpKey)) :=
        fun hleft => hleft.2.elim h.notUPnP h.notXupnp
      rw [htext, Exec.bind_ok, if_neg hpass, parseUnified]
      obtain ⟨hnull, htext'⟩ | ⟨hread', text', htext'⟩ := switchText_cases env wanUnificationKey
        ((st.call .rbusOpen).call (.rbusGet wanFailOverSupportKey))
      · rw [htext', Exec.bind_crash]
        exact Or.inl ⟨fun hsends => hsends.2.1 hnull, hunified⟩
      rw [htext', Exec.bind_ok, if_neg fun hleft => h.notMode hleft.2]
      obtain ⟨hnot, hreads⟩ | ⟨hupdates, calls, new, hreads, hafter⟩ := updateParam_calls env h
        configValue rebootValue rfcRebootCronNeeded (((st.call .rbusOpen).call
          (.rbusGet wanFailOverSupportKey)).call (.rbusGet wanUnificationKey))
      · exact Or.inl ⟨fun hsends => hnot hsends.2.2, hunified.trans hreads⟩
      · exact Or.inr ⟨⟨hread, hread', hupdates⟩, calls, new, hunified.trans hreads, hafter⟩

theorem parseConfigValue_extends (env : Env) (configKey configValue : Str)
    (rebootValue rfcRebootCronNeeded : Bool) (st : St) :
    Extends (OfParse (paramNameOf configKey)) st.calls
      (parseConfigValue env configKey configValue rebootValue rfcRebootCronNeeded st).state.calls := by
  have hopen : Extends (OfParse (paramNameOf configKey)) st.calls (st.call .rbusOpen).calls :=
    .snoc (Or.inl isRead_rbusOpen)
  simp only [parseConfigValue, St.rbusOpen]
  split
  next hreply => exact (Prod.mk.inj hreply).2 ▸ hopen
  next hreply =>
    obtain ⟨-, rfl⟩ := Prod.mk.inj hreply
    exact hopen.trans (parseOpened_extends env _ configValue rebootValue rfcRebootCronNeeded _)

theorem unsuppressed_clearDBKey : Unsuppressed clearDBKey where
  namespaced := contains_toList "Device.DeviceInfo" "Control.ClearDB" (by simp)
  notUPnP := toList_ne (by simp)
  notXupnp := toList_ne (by simp)
  notMode := toList_ne (by simp)

theorem unsuppressed_clearDBEndKey : Unsuppressed clearDBEndKey where
  namespaced := contains_toList "Device.DeviceInfo" "Control.ClearDBEnd" (by simp)
  notUPnP := toList_ne (by simp)
  notXupnp := toList_ne (by simp)
  notMode := toList_ne (by simp)

theorem uncleared_parseMember (env : Env) (member : Bool × Str × Str) (rfcRebootCronNeeded : Bool)
    (st : St) :
    Uncleared (parseMember env member rfcRebootCronNeeded st).state.calls ↔
      ParsesTo env clearDBKey member rfcRebootCronNeeded st ∨
        (Uncleared st.calls ∧ ¬ ParsesTo env clearDBEndKey member rfcRebootCronNeeded st) := by
  obtain ⟨rebootValue, configKey, configValue⟩ := member
  have hstate : (parseMember env (rebootValue, configKey, configValue) rfcRebootCronNeeded st).state =
      (parseConfigValue env configKey configValue rebootValue rfcRebootCronNeeded st).state := by
    unfold parseMember
    cases parseConfigValue env configKey configValue rebootValue rfcRebootCronNeeded st with
    | ok a s => rfl
    | crash s => rfl
  have hparses : ∀ key, ParsesTo env key (rebootValue, configKey, configValue) rfcRebootCronNeeded st ↔
      paramNameOf configKey = key ∧ ParseSends env (paramNameOf configKey) configValue st := by
    intro key
    refine and_congr_right fun hkey => ?_
    rw [← hkey]
  rw [hstate, hparses, hparses]
  by_cases hname : paramNameOf configKey = clearDBKey ∨ paramNameOf configKey = clearDBEndKey
  · have hunsuppressed : Unsuppressed (paramNameOf configKey) :=
      hname.elim (fun h => h ▸ unsuppressed_clearDBKey) fun h => h ▸ unsuppressed_clearDBEndKey
    exact uncleared_turn (parseConfigValue_calls env hunsuppressed configValue rebootValue
      rfcRebootCronNeeded st)
  · rw [not_or] at hname
    have hothers : Extends (fun c => ¬ c.Sets clearDBKey ∧ ¬ c.Sets clearDBEndKey) st.calls
        (parseConfigValue env configKey configValue rebootValue rfcRebootCronNeeded st).state.calls := by
      refine (parseConfigValue_extends ..).imp fun c hc => ⟨?_, ?_⟩
      · exact not_sets_of_ofParse (toList_ne (by simp)) (toList_ne (by simp)) hname.1 hc
      · exact not_sets_of_ofParse (toList_ne (by simp)) (toList_ne (by simp)) hname.2 hc
    rw [uncleared_of_others hothers]
    simp [hname.1, hname.2]

/-- A switch that is turned off by what turns another one on. -/
theorem not_or_and_not {on off before : Prop} (h : ¬ (on ∧ off)) :
    ¬ (on ∨ (before ∧ ¬ off)) ↔ off ∨ (¬ before ∧ ¬ on) := by tauto

/-- What the first pass leaves, started with the clearing open. -/
theorem uncleared_firstPass (env : Env) (pJson : Json) (proc : Processor) :
    ¬ Uncleared (firstPass env pJson proc).state.calls ↔ ClearedByMember env pJson proc := by
  have hstart : Uncleared (setInitial env (St.call ⟨proc, [], false⟩ .rbusOpen)).calls :=
    ⟨[.rbusOpen, .rbusSet codebigSupportKey (.boolean false),
      .rbusSet containerSupportKey (.boolean false)], .rbusSet clearDBKey (.boolean true), [], rfl, rfl,
      not_made_nil⟩
  have hturn : ∀ member cron (s : St), ¬ Uncleared (parseMember env member cron s).state.calls ↔
      ParsesTo env clearDBEndKey member cron s ∨
        (¬ Uncleared s.calls ∧ ¬ ParsesTo env clearDBKey member cron s) := by
    intro member cron s
    have hdistinct : ¬ (ParsesTo env clearDBKey member cron s ∧
        ParsesTo env clearDBEndKey member cron s) :=
      fun h => clearDBKey_ne_end (h.1.1.symm.trans h.2.1)
    rw [uncleared_parseMember]
    exact not_or_and_not hdistinct
  have hloop := Exec.forList_switches (P := fun s : St => ¬ Uncleared s.calls)
    (fun (member : Bool × Str × Str) (_ : member ∈ handed
      ((getRuntimeFeatureControlJSON pJson).getD [])) cron s => hturn member cron s) false
    (setInitial env (St.call ⟨proc, [], false⟩ .rbusOpen))
  rw [or_iff_left fun h => h.1 hstart] at hloop
  rw [firstPass, firstPass_eq]
  exact hloop

/-! ### The whole step -/

theorem processJsonResponseB_of_not_open {env : Env} (hopen : env.rbusOpen [] = false) (body : Body)
    (proc : Processor) : processJsonResponseB env body ⟨proc, [], false⟩ =
      .ok .failure (St.call ⟨proc, [], false⟩ .rbusOpen) := by
  simp only [processJsonResponseB, St.rbusOpen, hopen]

theorem firstPass_isPrefix (env : Env) (pJson : Json) (proc : Processor) :
    (setInitial env (St.call ⟨proc, [], false⟩ .rbusOpen)).calls <+:
      (firstPass env pJson proc).state.calls := by
  rw [firstPass, firstPass_eq]
  refine Exec.forList_state (R := fun s u : St => s.calls <+: u.calls) (fun _ => List.prefix_rfl)
    (fun _ _ _ => List.IsPrefix.trans) ?_ false _
  intro member _ cron s
  apply Exec.state_bind (P := fun u : St => s.calls <+: u.calls)
  · exact (parseConfigValue_extends ..).isPrefix
  · exact fun _ _ _ h => h

/-- Once the bus is open, something is set whatever the body is. -/
theorem setInitial_isPrefix {env : Env} (hopen : env.rbusOpen [] = true) (body : Body)
    (proc : Processor) : (setInitial env (St.call ⟨proc, [], false⟩ .rbusOpen)).calls <+:
      responseCalls env body proc := by
  cases body with
  | none =>
      rw [responseCalls_of_unparsed hopen]
  | some pJson =>
      have hpass := firstPass_isPrefix env pJson proc
      cases hfirst : firstPass env pJson proc with
      | crash s =>
          rw [responseCalls_of_crash hopen hfirst]
          rwa [hfirst] at hpass
      | ok rfcRebootCronNeeded s =>
          have hend : s.calls <+: (setClearDBEnd env s).calls := List.prefix_append _ _
          rw [hfirst] at hpass
          exact (hpass.trans hend).trans ((secondPass_isPrefix env _ _).trans
            (responseCalls_of_ok hopen hfirst).isPrefix)

theorem not_changesNothing {env : Env} (hopen : env.rbusOpen [] = true) (body : Body)
    (proc : Processor) : ¬ ChangesNothing env body proc := by
  rintro ⟨-, hreads⟩
  have hset : RbusCall.rbusSet codebigSupportKey (.boolean false) ∈
      (setInitial env (St.call ⟨proc, [], false⟩ .rbusOpen)).calls :=
    List.mem_cons_of_mem _ List.mem_cons_self
  cases hreads _ ((setInitial_isPrefix hopen body proc).subset hset)

/-- **When the step leaves nothing to clear.** -/
theorem uncleared_responseCalls {env : Env} (hopen : env.rbusOpen [] = true) (pJson : Json)
    (proc : Processor) : ¬ Uncleared (responseCalls env (some pJson) proc) ↔
      (FirstPassCrashes env pJson proc → ClearedByMember env pJson proc) ∧
        ¬ ClearedAgain env (some pJson) proc := by
  cases hfirst : firstPass env pJson proc with
  | crash s =>
      have hnone : ¬ ClearedAgain env (some pJson) proc := by
        rintro ⟨features, t, map, hpass, -⟩
        exact not_secondPassFrom_of_crash hfirst features t hpass
      have hcrashes : FirstPassCrashes env pJson proc := ⟨s, hfirst⟩
      rw [responseCalls_of_crash hopen hfirst, and_iff_left hnone, ← uncleared_firstPass, hfirst]
      exact ⟨fun h _ => h, fun h => h hcrashes⟩
  | ok rfcRebootCronNeeded s =>
      have hreturns : ¬ FirstPassCrashes env pJson proc := by
        rintro ⟨t, hcrash⟩
        cases hfirst.symm.trans hcrash
      have hend : ¬ Uncleared (setClearDBEnd env s).calls := by
        have hsnoc : Uncleared (setClearDBEnd env s).calls ↔ _ := uncleared_set
        rw [hsnoc]
        exact fun h => h.elim (fun h => clearDBKey_ne_end h.symm) fun h => h.2 rfl
      rw [and_iff_right fun h => absurd h hreturns,
        uncleared_of_reads (responseCalls_of_ok hopen hfirst), uncleared_secondPass env _ hend]
      refine not_congr ⟨?_, ?_⟩
      · rintro ⟨map, hmap, hleaves⟩
        exact ⟨_, _, map, (secondPassFrom_iff hopen hfirst).mpr ⟨rfl, rfl⟩, hmap, hleaves⟩
      · rintro ⟨features, t, map, hpass, hmap, hleaves⟩
        obtain ⟨rfl, rfl⟩ := (secondPassFrom_iff hopen hfirst).mp hpass
        exact ⟨map, hmap, hleaves⟩

/-- **When the step is lawful.** -/
theorem lawful_iff (env : Env) (body : Body) (proc : Processor) :
    Lawful env body proc ↔ env.rbusOpen [] = false ∨ ¬ Rejected body ∧ ∃ pJson, body = some pJson ∧
      (FirstPassCrashes env pJson proc → ClearedByMember env pJson proc) ∧
        ¬ ClearedAgain env body proc := by
  cases hopen : env.rbusOpen [] with
  | false =>
      have hrun := processJsonResponseB_of_not_open hopen body proc
      have hcalls : responseCalls env body proc = [.rbusOpen] := responseCalls_of_not_open hopen body
      refine iff_of_true ⟨fun _ => ⟨?_, ?_⟩, ?_⟩ (Or.inl rfl)
      · rw [hrun]
        rfl
      · intro c hc
        rw [hcalls] at hc
        rw [List.mem_singleton.mp hc]
        exact isRead_rbusOpen
      · intro earlier value later heq
        rw [hcalls] at heq
        simp [List.cons_eq_append_iff] at heq
  | true =>
      rw [or_iff_right Bool.noConfusion]
      constructor
      · intro h
        have haccepted : ¬ Rejected body := fun hrejected =>
          not_changesNothing hopen body proc (h.rejected hrejected)
        refine ⟨haccepted, ?_⟩
        cases body with
        | none => exact absurd rfl haccepted
        | some pJson =>
            exact ⟨pJson, rfl, (uncleared_responseCalls hopen pJson proc).mp
              (not_uncleared_iff.mpr h.cleared)⟩
      · rintro ⟨haccepted, pJson, rfl, hcleared⟩
        exact ⟨fun hrejected => absurd hrejected haccepted,
          not_uncleared_iff.mp ((uncleared_responseCalls hopen pJson proc).mpr hcleared)⟩

/-- A body that does not parse leaves the parameters cleared. -/
theorem not_lawful : ¬ Lawful allTrue none .fresh :=
  fun h => not_changesNothing rfl none .fresh (h.rejected rfl)

end RfcMgr.Rdkb
