import RfcMgr.ApplyFrame

/-! What is decided for one parameter of a response, as a function of what the outside answers while
the parameter is dealt with and of the variable `currentValue`, which outlives a pass of the loop. -/

namespace RfcMgr

/-- What the outside answers about a parameter. -/
@[ext] structure Answers where
  /-- The value read, when the read succeeds. -/
  read : Option Str
  bootstrap : Bool
  /-- What `ProcessXconfUrl` returns for a bootstrap URL; `none` is a crash. -/
  validation : Option ReturnCode
  set : WdmpStatus
  maintenance : Bool
  deriving DecidableEq

/-- The validation of a bootstrap URL; any other parameter has none. -/
def validated (env : Env) (key value : Str) (st : St) : Exec St ReturnCode :=
  if key = bootstrapXconfUrlKeyStr then processXconfUrl env value st else .ok .success st

/-- The answers that a pass started in `st` gets, each at the point where it is asked for. -/
def answers (env : Env) (key value : Str) (st : St) : Answers where
  read := (st.read env key 4096).1
  bootstrap := checkBootstrap st.dev key
  validation := (validated env key value (st.read env key 4096).2).value?
  set := ((validated env key value (st.read env key 4096).2).state.set env key value).1
  maintenance := isMaintenanceEnabled env

/-- What `isConfigValueChange` makes of the answers. -/
def checkOf (ans : Answers) (key value currentValue : Str) : ChangeCheck :=
  match ans.read with
  | none => ⟨true, value, currentValue⟩
  | some current => checkAgainst ans.bootstrap key value current

/-- The decision on a parameter that passes the check. -/
def setDecision (ans : Answers) (value currentValue : Str) : ParamDecision :=
  let updated := decide (ans.set = .success ∧ value ≠ currentValue)
  ⟨some value, updated, updated && ans.maintenance⟩

def decisionOf (ans : Answers) (key value currentValue : Str) : ParamDecision :=
  let check := checkOf ans key value currentValue
  if check.changed = false ∨ check.value = [] ∨ ans.validation ≠ some .success then skipped
  else setDecision ans value check.currentValue

theorem decisionOf_skipped {ans : Answers} {key value currentValue : Str}
    (h : (checkOf ans key value currentValue).changed = false ∨
      (checkOf ans key value currentValue).value = [] ∨ ans.validation ≠ some .success) :
    decisionOf ans key value currentValue = skipped := by
  rw [decisionOf, if_pos h]

theorem decisionOf_passed {ans : Answers} {key value currentValue : Str}
    (hchanged : (checkOf ans key value currentValue).changed = true)
    (hne : (checkOf ans key value currentValue).value ≠ [])
    (hvalidation : ans.validation = some .success) :
    decisionOf ans key value currentValue =
      setDecision ans value (checkOf ans key value currentValue).currentValue := by
  rw [decisionOf, if_neg]
  simp [hchanged, hne, hvalidation]

theorem checkBootstrap_congr {dev dev' : Device} (h : dev'.files = dev.files) (target : Str) :
    checkBootstrap dev' target = checkBootstrap dev target := by
  rw [checkBootstrap, checkBootstrap, h]

theorem isConfigValueChange_eq (env : Env) (key value currentValue : Str) (st : St) :
    isConfigValueChange env key value currentValue st =
      (checkOf (answers env key value st) key value currentValue, (st.read env key 4096).2) := by
  have hfiles := St.read_files env st key 4096
  simp only [isConfigValueChange, checkOf, answers]
  generalize st.read env key 4096 = result at hfiles
  obtain ⟨read, st'⟩ := result
  cases read with
  | none => rfl
  | some current =>
      change (checkAgainst (checkBootstrap st'.dev key) key value current, st') = _
      rw [checkBootstrap_congr hfiles]

/-- The check with which the pass over a parameter starts. -/
def paramCheck (env : Env) (key value : Str) (vars : ApplyVars) (st : St) : ChangeCheck :=
  checkOf (answers env key value st) key value vars.currentValue

/-- The state once a parameter is read. -/
def paramRead (env : Env) (key : Str) (st : St) : St := (st.read env key 4096).2

/-- **What a pass of the loop can do.** -/
inductive ParamStep (env : Env) (key value : Str) (vars : ApplyVars) (st : St) :
    Exec St ApplyVars → Prop where
  | unchanged (hchanged : (paramCheck env key value vars st).changed = false) :
      ParamStep env key value vars st
        (.ok (listParam key (paramCheck env key value vars st).value
          (paramCheck env key value vars st).currentValue vars)
          ((paramRead env key st).log (.param key value skipped)))
  | rejected (hchanged : (paramCheck env key value vars st).changed = true) (hempty : value = []) :
      ParamStep env key value vars st
        (.ok ⟨(paramCheck env key value vars st).currentValue, vars.paramList⟩
          ((paramRead env key st).log (.param key value skipped)))
  | crashed {t : St} (hchanged : (paramCheck env key value vars st).changed = true) (hne : value ≠ [])
      (hvalidated : validated env key value (paramRead env key st) = .crash t) :
      ParamStep env key value vars st (.crash t)
  | invalid {rc : ReturnCode} {t : St} (hchanged : (paramCheck env key value vars st).changed = true)
      (hne : value ≠ []) (hvalidated : validated env key value (paramRead env key st) = .ok rc t)
      (hrc : rc ≠ .success) :
      ParamStep env key value vars st
        (.ok ⟨(paramCheck env key value vars st).currentValue, vars.paramList⟩
          (t.log (.param key value skipped)))
  | written {t : St} (hchanged : (paramCheck env key value vars st).changed = true) (hne : value ≠ [])
      (hvalidated : validated env key value (paramRead env key st) = .ok .success t) :
      ParamStep env key value vars st
        (.ok (listParam key value (paramCheck env key value vars st).currentValue vars)
          ((setParam env key value (paramCheck env key value vars st).currentValue t).2.log
            (.param key value
              (setParam env key value (paramCheck env key value vars st).currentValue t).1)))

theorem paramCheck_value {env : Env} {key value : Str} {vars : ApplyVars} {st : St}
    (h : (paramCheck env key value vars st).changed = true) :
    (paramCheck env key value vars st).value = value := by
  have hvalue := isConfigValueChange_value env key value vars.currentValue st
  rw [isConfigValueChange_eq] at hvalue
  exact hvalue h

theorem applyParam_step (env : Env) (key value : Str) (vars : ApplyVars) (st : St) :
    ParamStep env key value vars st (applyParam env (key, value) vars st) := by
  have hcheck : isConfigValueChange env key value vars.currentValue st =
      (paramCheck env key value vars st, paramRead env key st) := isConfigValueChange_eq ..
  simp only [applyParam, hcheck]
  by_cases hchanged : (paramCheck env key value vars st).changed = false
  · rw [if_pos hchanged]
    exact .unchanged hchanged
  rw [if_neg hchanged]
  rw [Bool.not_eq_false] at hchanged
  rw [paramCheck_value hchanged]
  by_cases hempty : value = []
  · rw [if_pos hempty]
    exact .rejected hchanged hempty
  rw [if_neg hempty]
  change ParamStep env key value vars st ((validated env key value (paramRead env key st)).bind _)
  cases hvalidated : validated env key value (paramRead env key st) with
  | crash t => exact .crashed hchanged hempty hvalidated
  | ok rc t =>
      rw [Exec.bind_ok]
      by_cases hrc : rc = .success
      · subst hrc
        rw [if_neg (not_not.mpr rfl)]
        exact .written hchanged hempty hvalidated
      · rw [if_pos hrc]
        exact .invalid hchanged hempty hvalidated hrc

/-- The events of a URL validation. -/
def Event.OfValidation (e : Event) : Prop := ∃ url, e = .validationRequest url

theorem grows_validated (env : Env) (key value : Str) (st : St) :
    Grows Event.OfValidation (paramRead env key st)
      (validated env key value (paramRead env key st)).state := by
  unfold validated
  split
  · exact (validates_processXconfUrl env value _).events
  · exact .refl _

theorem paramRead_events (env : Env) (key : Str) (st : St) :
    (paramRead env key st).events = st.events := rfl

/-- **One pass of the loop**, seen from its trace: the validation requests, then the decision. -/
theorem applyParam_decision {env : Env} {key value : Str} {vars vars' : ApplyVars} {st t : St}
    (h : applyParam env (key, value) vars st = .ok vars' t) :
    ∃ s, Grows Event.OfValidation st s ∧ t.events = s.events ++
      [.param key value (decisionOf (answers env key value st) key value vars.currentValue)] := by
  have hgrows : Grows Event.OfValidation st (validated env key value (paramRead env key st)).state :=
    (Grows.of_eq (paramRead_events env key st)).trans (grows_validated env key value st)
  have hans : ∀ {rc s}, validated env key value (paramRead env key st) = .ok rc s →
      (answers env key value st).validation = some rc ∧
        (answers env key value st).set = (s.set env key value).1 := by
    intro rc s hrc
    rw [paramRead] at hrc
    constructor
    · simp only [answers, hrc, Exec.value?]
    · simp only [answers, hrc, Exec.state_ok]
  have hstep := applyParam_step env key value vars st
  rw [h] at hstep
  cases hstep with
  | unchanged hchanged =>
      refine ⟨paramRead env key st, .of_eq (paramRead_events ..), ?_⟩
      rw [decisionOf_skipped (.inl hchanged), St.log_events]
  | rejected hchanged hempty =>
      refine ⟨paramRead env key st, .of_eq (paramRead_events ..), ?_⟩
      rw [decisionOf_skipped (.inr (.inl ((paramCheck_value hchanged).trans hempty))), St.log_events]
  | invalid hchanged hne hvalidated hrc =>
      rw [hvalidated, Exec.state_ok] at hgrows
      have hfailed : (answers env key value st).validation ≠ some .success := by
        rw [(hans hvalidated).1]
        exact fun h => hrc (Option.some.inj h)
      refine ⟨_, hgrows, ?_⟩
      rw [decisionOf_skipped (.inr (.inr hfailed)), St.log_events]
  | @written s hchanged hne hvalidated =>
      obtain ⟨hvalidation, hset⟩ := hans hvalidated
      have hsame : (paramCheck env key value vars st).value ≠ [] :=
        (paramCheck_value hchanged).trans_ne hne
      rw [hvalidated, Exec.state_ok] at hgrows
      refine ⟨s, hgrows, ?_⟩
      rw [decisionOf_passed hchanged hsame hvalidation, St.log_events, setDecision, hset]
      rfl

/-- A pass that crashes in the validation decides nothing. -/
theorem applyParam_crash {env : Env} {key value : Str} {vars : ApplyVars} {st t : St}
    (h : applyParam env (key, value) vars st = .crash t) : Grows Event.OfValidation st t := by
  have hstep := applyParam_step env key value vars st
  rw [h] at hstep
  cases hstep with
  | crashed hchanged hne hvalidated =>
      have hgrows := grows_validated env key value st
      rw [hvalidated, Exec.state_crash] at hgrows
      exact (Grows.of_eq (paramRead_events env key st)).trans hgrows

/-! ### One parameter of a response -/

/-- In the run started in `st`, the pass over `key` starts in `s` with `vars`. -/
def Visits (env : Env) (features : List Json) (st : St) (key value : Str) (vars : ApplyVars)
    (s : St) : Prop :=
  ∃ map earlier later,
    createConfigDataValueMap features st.proc.rfcKeyAndValueMap = some map ∧
      map.toList = earlier ++ (key, value) :: later ∧
      Exec.forList (applyParam env) earlier ⟨[], []⟩ (clearDB env (filled map st)) = .ok vars s

/-- The run started in `st` decides this for `key`. -/
def Decides (env : Env) (features : List Json) (st : St) (key : Str) (decision : ParamDecision) :
    Prop :=
  ∃ value, .param key value decision ∈
    (processXconfResponseConfigDataPart env features st).state.events

/-- No decision on `key` has been taken yet. -/
def Undecided (key : Str) (st : St) : Prop := ∀ value decision, .param key value decision ∉ st.events

theorem Undecided.grows {key : Str} {P : Event → Prop} {s t : St} (h : Undecided key s)
    (hgrows : Grows P s t) (hP : ∀ value decision, ¬ P (.param key value decision)) :
    Undecided key t := by
  obtain ⟨es, hes, hall⟩ := hgrows
  intro value decision hmem
  rw [hes] at hmem
  rcases List.mem_append.mp hmem with hmem | hmem
  · exact h value decision hmem
  · exact hP value decision (hall _ hmem)

/-- The keys of a map before and behind one of them are others. -/
theorem other_keys {map : ConfigMap} {earlier later : List (Str × Str)} {key value : Str}
    (h : map.toList = earlier ++ (key, value) :: later) :
    (∀ v, (key, v) ∉ earlier) ∧ ∀ v, (key, v) ∉ later := by
  have hdistinct := Std.TreeMap.distinct_keys_toList (t := map)
  rw [h, List.pairwise_append, List.pairwise_cons] at hdistinct
  obtain ⟨-, ⟨hlater, -⟩, hearlier⟩ := hdistinct
  have hself : compare key key = .eq := Std.ReflCmp.compare_self
  refine ⟨fun v hv => ?_, fun v hv => ?_⟩
  · exact hearlier (key, v) hv (key, value) List.mem_cons_self hself
  · exact hlater (key, v) hv hself

/-- The trace of a run around the pass over `key`: before it nothing is decided about `key`, and behind
it nothing more. -/
theorem decides_pass {env : Env} {features : List Json} {st s : St} {key value value' : Str}
    {vars : ApplyVars} {decision : ParamDecision}
    (hvisits : Visits env features st key value vars s)
    (hmem : .param key value' decision ∈
      (processXconfResponseConfigDataPart env features st).state.events) :
    .param key value' decision ∈ (applyParam env (key, value) vars s).state.events := by
  obtain ⟨map, earlier, later, hmap, hlist, hpasses⟩ := hvisits
  have hlater := (other_keys hlist).2
  rw [configDataPart_eq hmap, isEmpty_eq_false hlist, if_neg Bool.false_ne_true, hlist,
    Exec.forList_append, hpasses, Exec.bind_ok, Exec.forList_cons] at hmem
  cases hpass : applyParam env (key, value) vars s with
  | crash t =>
      rw [hpass] at hmem
      exact hmem
  | ok vars' t =>
      rw [hpass, Exec.bind_ok] at hmem
      have hgrows := (loopFrame_applyParams env later vars' t).events
      generalize Exec.forList (applyParam env) later vars' t = out at hmem hgrows
      obtain ⟨es, hes, hall⟩ := hgrows
      have hend : .param key value' decision ∈ out.state.events := by
        cases out with
        | crash u => exact hmem
        | ok vars'' u => exact hmem
      rw [hes] at hend
      rcases List.mem_append.mp hend with hend | hend
      · exact hend
      · exact absurd (hall _ hend).1 (hlater value')

theorem Visits.undecided {env : Env} {features : List Json} {st s : St} {key value : Str}
    {vars : ApplyVars} (hvisits : Visits env features st key value vars s)
    (hundecided : Undecided key st) : Undecided key s := by
  obtain ⟨map, earlier, later, -, hlist, hpasses⟩ := hvisits
  have hearlier := (other_keys hlist).1
  have hfill : Grows (fun e => ∃ proc dev, e = .fill proc dev) st (filled map st) :=
    ⟨[.fill st.proc st.dev], rfl, fun e he => ⟨_, _, List.mem_singleton.mp he⟩⟩
  have hclear : (clearDB env (filled map st)).events = (filled map st).events :=
    (clearFrame_clearDB env (filled map st)).events
  have hloop := (loopFrame_applyParams env earlier ⟨[], []⟩ (clearDB env (filled map st))).events
  rw [hpasses, Exec.state_ok] at hloop
  have hstart : Undecided key (clearDB env (filled map st)) := by
    have hfilled := hundecided.grows hfill fun v d h => by
      obtain ⟨_, _, h⟩ := h
      cases h
    intro v d hmem
    rw [hclear] at hmem
    exact hfilled v d hmem
  exact hstart.grows hloop fun v d h => hearlier v h.1

/-- **The decision of a run** is the one of the pass over the parameter. -/
theorem decision_eq_decisionOf {env : Env} {features : List Json} {st s : St} {key value : Str}
    {vars : ApplyVars} {decision : ParamDecision}
    (hvisits : Visits env features st key value vars s) (hundecided : Undecided key st)
    (hdecides : Decides env features st key decision) :
    decision = decisionOf (answers env key value s) key value vars.currentValue := by
  obtain ⟨value', hmem⟩ := hdecides
  have hs := hvisits.undecided hundecided
  have hnone : ∀ v d, ¬ Event.OfValidation (.param key v d) := by
    rintro v d ⟨_, h⟩
    cases h
  have hpassed := decides_pass hvisits hmem
  cases hpass : applyParam env (key, value) vars s with
  | crash t =>
      rw [hpass] at hpassed
      exact absurd hpassed (hs.grows (applyParam_crash hpass) hnone value' decision)
  | ok vars' t =>
      rw [hpass, Exec.state_ok] at hpassed
      obtain ⟨u, hgrows, hevents⟩ := applyParam_decision hpass
      rw [hevents] at hpassed
      rcases List.mem_append.mp hpassed with hpassed | hpassed
      · exact absurd hpassed (hs.grows hgrows hnone value' decision)
      · exact (Event.param.inj (List.mem_singleton.mp hpassed)).2.2

/-- **When two runs that agree on a parameter decide alike about it.** What other parameters can change
is the `currentValue` that a failed read leaves behind. -/
theorem decision_eq_iff {env₁ env₂ : Env} {features₁ features₂ : List Json} {st₁ st₂ s₁ s₂ : St}
    {key value : Str} {vars₁ vars₂ : ApplyVars} {decision₁ decision₂ : ParamDecision}
    (hvisits₁ : Visits env₁ features₁ st₁ key value vars₁ s₁)
    (hvisits₂ : Visits env₂ features₂ st₂ key value vars₂ s₂)
    (hundecided₁ : Undecided key st₁) (hundecided₂ : Undecided key st₂)
    (hdecides₁ : Decides env₁ features₁ st₁ key decision₁)
    (hdecides₂ : Decides env₂ features₂ st₂ key decision₂)
    (hagree : answers env₁ key value s₁ = answers env₂ key value s₂) :
    decision₁ = decision₂ ↔
      (answers env₁ key value s₁).read.isSome ∨ value = [] ∨
        (answers env₁ key value s₁).validation ≠ some .success ∨
        (answers env₁ key value s₁).set ≠ .success ∨
        (value = vars₁.currentValue ↔ value = vars₂.currentValue) := by
  rw [decision_eq_decisionOf hvisits₁ hundecided₁ hdecides₁,
    decision_eq_decisionOf hvisits₂ hundecided₂ hdecides₂, ← hagree]
  generalize answers env₁ key value s₁ = ans
  generalize vars₁.currentValue = current₁
  generalize vars₂.currentValue = current₂
  cases hread : ans.read with
  | some current =>
      have hsame : decisionOf ans key value current₁ = decisionOf ans key value current₂ := by
        simp only [decisionOf, checkOf, hread]
      simp [hsame]
  | none =>
      simp only [decisionOf, checkOf, hread, Option.isSome_none, Bool.false_eq_true, false_or,
        Bool.true_eq_false]
      by_cases hempty : value = []
      · simp [hempty]
      by_cases hvalidation : ans.validation = some .success
      · by_cases hset : ans.set = .success
        · simp only [hempty, hvalidation, hset, ne_eq, not_true_eq_false, or_self, if_false,
            setDecision, false_or, ParamDecision.mk.injEq, true_and, decide_eq_decide]
          constructor
          · rintro ⟨hupdated, -⟩
            exact not_iff_not.mp hupdated
          · intro hsame
            have hupdated := not_iff_not.mpr hsame
            exact ⟨hupdated, by rw [decide_eq_decide.mpr hupdated]⟩
        · simp [hempty, hvalidation, hset, setDecision]
      · simp [hempty, hvalidation]

/-- A response with the parameters `Device.X.A` and `Device.X.B`, and one with the second alone. -/
def withOtherKey : List Json :=
  [.object (plainFeature "F".toList
    [("Device.X.A".toList, .string "1".toList), ("Device.X.B".toList, .string "1".toList)])]

def alone : List Json :=
  [.object (plainFeature "F".toList [("Device.X.B".toList, .string "1".toList)])]

/-- The first pass of a run. -/
theorem visits_first {env : Env} {features : List Json} {st : St} {map : ConfigMap}
    {key value : Str} {later : List (Str × Str)}
    (hmap : createConfigDataValueMap features st.proc.rfcKeyAndValueMap = some map)
    (hlist : map.toList = (key, value) :: later) :
    Visits env features st key value ⟨[], []⟩ (clearDB env (filled map st)) :=
  ⟨map, [], later, hmap, hlist, rfl⟩

/-- The second pass of a run. -/
theorem visits_second {env : Env} {features : List Json} {st : St} {map : ConfigMap}
    {first : Str × Str} {key value : Str} {later : List (Str × Str)} {vars : ApplyVars}
    (hmap : createConfigDataValueMap features st.proc.rfcKeyAndValueMap = some map)
    (hlist : map.toList = first :: (key, value) :: later)
    (hvars : (applyParam env first ⟨[], []⟩ (clearDB env (filled map st))).value? = some vars) :
    Visits env features st key value vars
      (applyParam env first ⟨[], []⟩ (clearDB env (filled map st))).state := by
  refine ⟨map, [first], later, hmap, hlist, ?_⟩
  rw [Exec.forList_cons, Exec.eq_ok_of_value? hvars]
  rfl

def Event.decidesOn (key : Str) (decision : ParamDecision) : Event → Bool
  | .param key' _ decision' => key' == key && decision' == decision
  | _ => false

theorem decides_of_any {env : Env} {features : List Json} {st : St} {key : Str}
    {decision : ParamDecision}
    (h : (processXconfResponseConfigDataPart env features st).state.events.any
      (Event.decidesOn key decision) = true) : Decides env features st key decision := by
  obtain ⟨e, hmem, he⟩ := List.any_eq_true.mp h
  cases e with
  | param key' value decision' =>
      simp only [Event.decidesOn, Bool.and_eq_true, beq_iff_eq] at he
      obtain ⟨rfl, rfl⟩ := he
      exact ⟨value, hmem⟩
  | request | response | validationRequest | preProcessed | apply | fill | applied | stored =>
      cases he

/-- The maps and the states that the two responses lead to. -/
def mapOf (features : List Json) : ConfigMap := (createConfigDataValueMap features ∅).getD ∅

theorem mapOf_eq {features : List Json} (h : (createConfigDataValueMap features ∅).isSome) :
    createConfigDataValueMap features ∅ = some (mapOf features) := by
  rw [mapOf]
  cases hmap : createConfigDataValueMap features ∅ with
  | none =>
      rw [hmap] at h
      cases h
  | some map => rfl

theorem toList_mapOf_alone : (mapOf alone).toList = [("Device.X.B".toList, "1".toList)] := by
  decide +kernel

def cleared (env : Env) (features : List Json) : St := clearDB env (filled (mapOf features) .fresh)

def otherKey : Str × Str := ("Device.X.A".toList, "1".toList)

def otherKeyDone (env : Env) : St :=
  (applyParam env otherKey ⟨[], []⟩ (cleared env withOtherKey)).state

/-- A run on a plain device decides this for `Device.X.B`. -/
def decidesB (env : Env) (features : List Json) (decision : ParamDecision) : Bool :=
  (processXconfResponseConfigDataPart env features .fresh).state.events.any
    (Event.decidesOn "Device.X.B".toList decision)

/-- The parameter behind a feature that has none. -/
def behindEmpty : List Json := .object (plainFeature "E".toList []) :: alone

/-- Both responses have the same parameter, so the read does not matter. -/
theorem decision_eq_iff_plain : ∃ decision,
    Decides .plain alone .fresh "Device.X.B".toList decision ∧
      Decides .plain behindEmpty .fresh "Device.X.B".toList decision := by
  have hundecided : Undecided "Device.X.B".toList .fresh := fun _ _ => List.not_mem_nil
  obtain ⟨halone, hbehind⟩ : decidesB .plain alone ⟨some "1".toList, true, false⟩ = true ∧
      decidesB .plain behindEmpty ⟨some "1".toList, true, false⟩ = true := by decide +kernel
  have hmap : createConfigDataValueMap alone ∅ = some (mapOf alone) := mapOf_eq (by decide)
  have hsame : createConfigDataValueMap behindEmpty ∅ = some (mapOf alone) := by
    rw [← hmap]
    rfl
  have hdecides₁ : Decides .plain alone .fresh "Device.X.B".toList
      ⟨some "1".toList, true, false⟩ := decides_of_any halone
  have hdecides₂ : Decides .plain behindEmpty .fresh "Device.X.B".toList
      ⟨some "1".toList, true, false⟩ := decides_of_any hbehind
  have heq := (decision_eq_iff (visits_first hmap toList_mapOf_alone)
    (visits_first hsame toList_mapOf_alone)
    hundecided hundecided hdecides₁ hdecides₂ rfl).mpr (.inr (.inr (.inr (.inr Iff.rfl))))
  exact ⟨_, hdecides₁, heq ▸ hdecides₂⟩

/-- The first get of `Device.X.B` fails, and every parameter has the value `1`. -/
def failingOnce : Env :=
  { Env.plain with hostif := { Hostif.willing with
      getReply := fun key n =>
        if key = "Device.X.B".toList ∧ n = 0 then ⟨.failure, false, none⟩
        else ⟨.success, true, some .string⟩
      dflt := fun _ => "1".toList } }

/-- The value read for `Device.X.A` is still in `currentValue` when the read of `Device.X.B` fails. -/
theorem not_decision_eq :
    ¬ ∀ env₁ env₂ features₁ features₂ st₁ st₂ s₁ s₂ key value vars₁ vars₂ decision₁ decision₂,
      Visits env₁ features₁ st₁ key value vars₁ s₁ → Visits env₂ features₂ st₂ key value vars₂ s₂ →
      Undecided key st₁ → Undecided key st₂ →
      Decides env₁ features₁ st₁ key decision₁ → Decides env₂ features₂ st₂ key decision₂ →
      answers env₁ key value s₁ = answers env₂ key value s₂ → decision₁ = decision₂ := by
  intro h
  have hundecided : Undecided "Device.X.B".toList .fresh := fun _ _ => List.not_mem_nil
  obtain ⟨⟨hlist, hfirst⟩, ⟨hbehind, halone⟩, hagree⟩ :
      ((mapOf withOtherKey).toList = [otherKey, ("Device.X.B".toList, "1".toList)] ∧
        (applyParam failingOnce otherKey ⟨[], []⟩ (cleared failingOnce withOtherKey)).value? =
          some ⟨"1".toList, [paramLine otherKey.1 otherKey.2]⟩) ∧
      (decidesB failingOnce withOtherKey ⟨some "1".toList, false, false⟩ = true ∧
        decidesB failingOnce alone ⟨some "1".toList, true, false⟩ = true) ∧
      answers failingOnce "Device.X.B".toList "1".toList (otherKeyDone failingOnce) =
        answers failingOnce "Device.X.B".toList "1".toList (cleared failingOnce alone) := by
    decide +kernel
  have hvisits₁ : Visits failingOnce withOtherKey .fresh "Device.X.B".toList "1".toList
      ⟨"1".toList, [paramLine otherKey.1 otherKey.2]⟩ (otherKeyDone failingOnce) :=
    visits_second (mapOf_eq (by decide)) hlist hfirst
  have hvisits₂ : Visits failingOnce alone .fresh "Device.X.B".toList "1".toList ⟨[], []⟩
      (cleared failingOnce alone) :=
    visits_first (mapOf_eq (by decide)) toList_mapOf_alone
  have hdecides₁ : Decides failingOnce withOtherKey .fresh "Device.X.B".toList
      ⟨some "1".toList, false, false⟩ := decides_of_any hbehind
  have hdecides₂ : Decides failingOnce alone .fresh "Device.X.B".toList
      ⟨some "1".toList, true, false⟩ := decides_of_any halone
  have heq := h failingOnce failingOnce withOtherKey alone .fresh .fresh _ _ _ _ _ _ _ _ hvisits₁
    hvisits₂ hundecided hundecided hdecides₁ hdecides₂ hagree
  cases heq

end RfcMgr
