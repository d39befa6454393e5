import RfcMgr.ParamDecisions

/-! What the apply step reports about its writes: a parameter logged as updated, and the reboot flag.
`set_RFCProperty` answers with the status of its get, so the reports follow the gets and not the sets. -/

namespace RfcMgr

namespace Device

variable (h : Hostif) (dev : Device)

/-- The data type that the hostif reports for a parameter when it is asked now. -/
def reportedType (key : Str) : Option DataType :=
  if key.getLast? = some '.' then none else (h.getReply key (dev.gets key)).type

/-- The hostif takes a set of `key` to `value` that is made now with the type it reports. -/
def Stores (key value : Str) : Prop :=
  ∃ type, dev.reportedType h key = some type ∧ type ≠ .none ∧
    h.setReply key (dev.sets key) value type = .success

/-- The value that the hostif has for a parameter, as a buffer of the manager holds it. -/
def servedValue (key : Str) : Str :=
  readValue (((dev.rfcStore key).getD (h.dflt key)).take (maxParamLen - 1)) 4096

theorem setRFCProperty_fst (key value : Str) :
    (dev.setRFCProperty h key value).1 = (dev.getRFCParameter h key).1 := by
  simp only [setRFCProperty]
  split
  · rfl
  · rfl

end Device

/-! ### The writes of a run and its reports -/

/-- The pass over `key` that starts in `s` comes to its set in `t`. -/
def Sets (env : Env) (key value : Str) (vars : ApplyVars) (s t : St) : Prop :=
  (paramCheck env key value vars s).changed = true ∧ value ≠ [] ∧
    validated env key value (paramRead env key s) = .ok .success t

/-- The run started in `st` stores another value under `key` than the one it had. -/
def StoresChange (env : Env) (features : List Json) (st : St) (key : Str) : Prop :=
  ∃ value vars s t, Visits env features st key value vars s ∧ Sets env key value vars s t ∧
    t.dev.Stores env.hostif key value ∧ value ≠ t.dev.servedValue env.hostif key

/-- The trace says `updated for key`. -/
def LoggedUpdated (key : Str) (events : List Event) : Prop :=
  ∃ value decision, .param key value decision ∈ events ∧ decision.updated = true

/-- The state after `processXconfResponseConfigDataPart`, with nothing in the trace before it. -/
def afterPart (env : Env) (features : List Json) (proc : Processor) (dev : Device) : St :=
  (processXconfResponseConfigDataPart env features ⟨proc, dev, []⟩).state

/-- Updates and the reboot flag are reported exactly for what is stored. -/
structure Faithful (env : Env) (features : List Json) (proc : Processor) (dev : Device) : Prop where
  updated : ∀ key, LoggedUpdated key (afterPart env features proc dev).events ↔
    StoresChange env features ⟨proc, dev, []⟩ key
  reboot : (afterPart env features proc dev).proc.isRebootRequired = true ↔
    proc.isRebootRequired = true ∨
      (isMaintenanceEnabled env = true ∧ ∃ key, StoresChange env features ⟨proc, dev, []⟩ key)

/-- The value that a new one is compared with: the one just read, or after a failed read the one left
by an earlier pass. -/
def comparedValue (env : Env) (key : Str) (vars : ApplyVars) (s : St) : Str :=
  (s.read env key 4096).1.getD vars.currentValue

/-- The replies to a pass over `key` that comes to its set in `t` tell what becomes of it. -/
def Telling (env : Env) (key value : Str) (vars : ApplyVars) (s t : St) : Prop :=
  if value = comparedValue env key vars s then
    t.dev.Stores env.hostif key value → value = t.dev.servedValue env.hostif key
  else
    (t.dev.getRFCParameter env.hostif key).1 = .success ↔
      t.dev.Stores env.hostif key value ∧ value ≠ t.dev.servedValue env.hostif key

/-! ### What a pass reports -/

/-- The pass over `key` reports an update. -/
def Reports (env : Env) (key value : Str) (vars : ApplyVars) (s : St) : Prop :=
  ∃ t, Sets env key value vars s t ∧ (t.dev.getRFCParameter env.hostif key).1 = .success ∧
    value ≠ comparedValue env key vars s

theorem paramCheck_currentValue (env : Env) (key value : Str) (vars : ApplyVars) (s : St) :
    (paramCheck env key value vars s).currentValue = comparedValue env key vars s := by
  simp only [paramCheck, checkOf, answers, comparedValue]
  cases (s.read env key 4096).1 with
  | none => rfl
  | some current =>
      simp only [checkAgainst, Option.getD_some]
      split
      · rfl
      · split
        · rfl
        · rfl

theorem setParam_updated (env : Env) (key value currentValue : Str) (t : St) :
    (setParam env key value currentValue t).1.updated = true ↔
      (t.dev.getRFCParameter env.hostif key).1 = .success ∧ value ≠ currentValue := by
  simp only [setParam, St.set, Device.setRFCProperty_fst, decide_eq_true_eq]

theorem loggedUpdated_append {k : Str} {es es' : List Event} :
    LoggedUpdated k (es ++ es') ↔ LoggedUpdated k es ∨ LoggedUpdated k es' := by
  constructor
  · rintro ⟨value, decision, hmem, hupdated⟩
    rcases List.mem_append.mp hmem with hmem | hmem
    · exact Or.inl ⟨value, decision, hmem, hupdated⟩
    · exact Or.inr ⟨value, decision, hmem, hupdated⟩
  · rintro (⟨value, decision, hmem, hupdated⟩ | ⟨value, decision, hmem, hupdated⟩)
    · exact ⟨value, decision, List.mem_append_left es' hmem, hupdated⟩
    · exact ⟨value, decision, List.mem_append_right es hmem, hupdated⟩

theorem loggedUpdated_param {k key value : Str} {decision : ParamDecision} :
    LoggedUpdated k [.param key value decision] ↔ key = k ∧ decision.updated = true := by
  constructor
  · rintro ⟨value', decision', hmem, hupdated⟩
    obtain ⟨rfl, rfl, rfl⟩ := Event.param.inj (List.mem_singleton.mp hmem)
    exact ⟨rfl, hupdated⟩
  · rintro ⟨rfl, hupdated⟩
    exact ⟨value, decision, List.mem_singleton.mpr rfl, hupdated⟩

/-- What the reports are read off from, up to the decision of a pass. -/
structure SameReports (s t : St) : Prop where
  logged : ∀ k, LoggedUpdated k t.events ↔ LoggedUpdated k s.events
  reboot : t.proc.isRebootRequired = s.proc.isRebootRequired

theorem sameReports_validated (env : Env) (key value : Str) (s : St) :
    SameReports s (validated env key value (paramRead env key s)).state := by
  have hread : SameReports s (paramRead env key s) := ⟨fun _ => Iff.rfl, rfl⟩
  unfold validated
  split
  · have hvalidates := validates_processXconfUrl env value (paramRead env key s)
    obtain ⟨b, flag, hproc⟩ := hvalidates.proc
    obtain ⟨es, hes, hall⟩ := hvalidates.events
    have hnone : ∀ k, ¬ LoggedUpdated k es := by
      rintro k ⟨v, d, hmem, -⟩
      obtain ⟨url, hurl⟩ := hall _ hmem
      cases hurl
    refine ⟨fun k => ?_, ?_⟩
    · rw [hes, loggedUpdated_append, or_iff_left (hnone k)]
      exact hread.logged k
    · rw [hproc]
      exact hread.reboot
  · exact hread

theorem SameReports.logSkipped {s t : St} (h : SameReports s t) (key value k : Str) :
    (LoggedUpdated k (t.log (.param key value skipped)).events ↔ LoggedUpdated k s.events) ∧
      (t.log (.param key value skipped)).proc.isRebootRequired = s.proc.isRebootRequired := by
  have hskipped : ¬ (key = k ∧ skipped.updated = true) := by
    rintro ⟨-, hupdated⟩
    cases hupdated
  refine ⟨?_, h.reboot⟩
  rw [St.log_events, loggedUpdated_append, loggedUpdated_param, or_iff_left hskipped]
  exact h.logged k

theorem Sets.unique {env : Env} {key value : Str} {vars : ApplyVars} {s t t' : St}
    (h : Sets env key value vars s t) (h' : Sets env key value vars s t') : t = t' :=
  (Exec.ok.inj (h.2.2.symm.trans h'.2.2)).2

/-- A pass that comes to its set reports what the set says. -/
theorem Sets.reports_iff {env : Env} {key value : Str} {vars : ApplyVars} {s t : St}
    (h : Sets env key value vars s t) : Reports env key value vars s ↔
      (setParam env key value (paramCheck env key value vars s).currentValue t).1.updated = true := by
  rw [setParam_updated, paramCheck_currentValue]
  constructor
  · rintro ⟨t', hsets, hstatus⟩
    obtain rfl := h.unique hsets
    exact hstatus
  · exact fun hstatus => ⟨t, h, hstatus⟩

/-- **What a pass adds to the reports**: its own update. -/
theorem applyParam_reports (env : Env) (key value : Str) (vars : ApplyVars) (s : St) (k : Str) :
    (LoggedUpdated k (applyParam env (key, value) vars s).state.events ↔
      LoggedUpdated k s.events ∨ (key = k ∧ Reports env key value vars s)) ∧
    ((applyParam env (key, value) vars s).state.proc.isRebootRequired = true ↔
      s.proc.isRebootRequired = true ∨
        (isMaintenanceEnabled env = true ∧ Reports env key value vars s)) := by
  have hread : SameReports s (paramRead env key s) := ⟨fun _ => Iff.rfl, rfl⟩
  have hvalid := sameReports_validated env key value s
  have hstep := applyParam_step env key value vars s
  generalize applyParam env (key, value) vars s = out at hstep ⊢
  -- a pass that does not come to its set reports nothing
  have hquiet : ¬ Reports env key value vars s →
      (LoggedUpdated k out.state.events ↔ LoggedUpdated k s.events) ∧
        out.state.proc.isRebootRequired = s.proc.isRebootRequired →
      (LoggedUpdated k out.state.events ↔
        LoggedUpdated k s.events ∨ (key = k ∧ Reports env key value vars s)) ∧
      (out.state.proc.isRebootRequired = true ↔ s.proc.isRebootRequired = true ∨
        (isMaintenanceEnabled env = true ∧ Reports env key value vars s)) := by
    rintro hnone ⟨hlogged, hreboot⟩
    rw [or_iff_left fun h => hnone h.2, or_iff_left fun h => hnone h.2, hreboot]
    exact ⟨hlogged, Iff.rfl⟩
  cases hstep with
  | unchanged hchanged =>
      refine hquiet ?_ (hread.logSkipped key value k)
      rintro ⟨t, ⟨hset, -⟩, -⟩
      exact absurd (hchanged.symm.trans hset) Bool.false_ne_true
  | rejected hchanged hempty =>
      refine hquiet ?_ (hread.logSkipped key value k)
      rintro ⟨t, ⟨-, hne, -⟩, -⟩
      exact hne hempty
  | crashed hchanged hne hvalidated =>
      rw [hvalidated] at hvalid
      refine hquiet ?_ ⟨hvalid.logged k, hvalid.reboot⟩
      rintro ⟨t, ⟨-, -, hset⟩, -⟩
      rw [hvalidated] at hset
      cases hset
  | invalid hchanged hne hvalidated hrc =>
      rw [hvalidated] at hvalid
      refine hquiet ?_ (hvalid.logSkipped key value k)
      rintro ⟨t, ⟨-, -, hset⟩, -⟩
      rw [hvalidated] at hset
      exact hrc (Exec.ok.inj hset).1
  | @written t hchanged hne hvalidated =>
      rw [hvalidated, Exec.state_ok] at hvalid
      rw [Sets.reports_iff ⟨hchanged, hne, hvalidated⟩]
      refine ⟨?_, ?_⟩
      · rw [Exec.state_ok, St.log_events, loggedUpdated_append, loggedUpdated_param]
        exact or_congr_left (hvalid.logged k)
      · have hflag : (setParam env key value (paramCheck env key value vars s).currentValue
            t).2.proc.isRebootRequired = (s.proc.isRebootRequired ||
              ((setParam env key value (paramCheck env key value vars s).currentValue t).1.updated &&
                isMaintenanceEnabled env)) := by
          rw [← hvalid.reboot]
          rfl
        rw [Exec.state_ok, St.log_proc, hflag, Bool.or_eq_true, Bool.and_eq_true, and_comm]

/-! ### What a run reports -/

theorem visits_iff {env : Env} {features : List Json} {st s : St} {key value : Str}
    {vars : ApplyVars} {map : ConfigMap}
    (hmap : createConfigDataValueMap features st.proc.rfcKeyAndValueMap = some map) :
    Visits env features st key value vars s ↔
      Exec.Reaches (applyParam env) map.toList ⟨[], []⟩ (clearDB env (filled map st)) (key, value)
        vars s := by
  constructor
  · rintro ⟨map', earlier, later, hmap', hlist, hpasses⟩
    obtain rfl : map = map' := Option.some.inj (hmap.symm.trans hmap')
    exact ⟨earlier, later, hlist, hpasses⟩
  · rintro ⟨earlier, later, hlist, hpasses⟩
    exact ⟨map, earlier, later, hmap, hlist, hpasses⟩

/-- A run comes to a parameter at most once. -/
theorem Visits.unique {env : Env} {features : List Json} {st s s' : St} {key value value' : Str}
    {vars vars' : ApplyVars} (h : Visits env features st key value vars s)
    (h' : Visits env features st key value' vars' s') : value' = value ∧ vars' = vars ∧ s' = s := by
  obtain ⟨map, earlier, later, hmap, hlist, hpasses⟩ := h
  obtain ⟨map', earlier', later', hmap', hlist', hpasses'⟩ := h'
  obtain rfl : map = map' := Option.some.inj (hmap.symm.trans hmap')
  obtain ⟨hearlier, hlater⟩ := other_keys hlist
  have hsplit := (List.append_cons_inj_of_notMem (hearlier value') (hlater value')).mp
    (hlist.symm.trans hlist')
  obtain ⟨rfl, hpair, -⟩ := hsplit
  obtain ⟨rfl, rfl⟩ := Exec.ok.inj (hpasses.symm.trans hpasses')
  exact ⟨(Prod.mk.inj hpair).2.symm, rfl, rfl⟩

/-- The run started in `st` reports an update of `key`. -/
def ReportsUpdate (env : Env) (features : List Json) (st : St) (key : Str) : Prop :=
  ∃ value vars s, Visits env features st key value vars s ∧ Reports env key value vars s

/-- The loop of a run reports what its passes report. -/
theorem applyParams_reports (env : Env) {features : List Json} (st : St) {map : ConfigMap}
    (hmap : createConfigDataValueMap features st.proc.rfcKeyAndValueMap = some map) :
    let start := clearDB env (filled map st)
    let out := (Exec.forList (applyParam env) map.toList ⟨[], []⟩ start).state
    (∀ key, LoggedUpdated key out.events ↔
      LoggedUpdated key start.events ∨ ReportsUpdate env features st key) ∧
    (out.proc.isRebootRequired = true ↔ start.proc.isRebootRequired = true ∨
      (isMaintenanceEnabled env = true ∧ ∃ key, ReportsUpdate env features st key)) := by
  intro start out
  constructor
  · intro key
    have hgathers := Exec.forList_gathers (P := fun t : St => LoggedUpdated key t.events)
      (Q := fun (pair : Str × Str) vars s => pair.1 = key ∧ Reports env pair.1 pair.2 vars s)
      (fun (pair : Str × Str) (_ : pair ∈ map.toList) vars s =>
        (applyParam_reports env pair.1 pair.2 vars s key).1) ⟨[], []⟩ start
    refine hgathers.trans (or_congr_right ?_)
    constructor
    · rintro ⟨⟨_, value⟩, vars, s, hreach, rfl, hreports⟩
      exact ⟨value, vars, s, (visits_iff hmap).mpr hreach, hreports⟩
    · rintro ⟨value, vars, s, hvisits, hreports⟩
      exact ⟨(key, value), vars, s, (visits_iff hmap).mp hvisits, rfl, hreports⟩
  · have hgathers := Exec.forList_gathers (P := fun t : St => t.proc.isRebootRequired = true)
      (Q := fun (pair : Str × Str) vars s =>
        isMaintenanceEnabled env = true ∧ Reports env pair.1 pair.2 vars s)
      (fun (pair : Str × Str) (_ : pair ∈ map.toList) vars s =>
        (applyParam_reports env pair.1 pair.2 vars s pair.1).2) ⟨[], []⟩ start
    refine hgathers.trans (or_congr_right ?_)
    constructor
    · rintro ⟨⟨key, value⟩, vars, s, hreach, hmaintenance, hreports⟩
      exact ⟨hmaintenance, key, value, vars, s, (visits_iff hmap).mpr hreach, hreports⟩
    · rintro ⟨hmaintenance, key, value, vars, s, hvisits, hreports⟩
      exact ⟨(key, value), vars, s, (visits_iff hmap).mp hvisits, hmaintenance, hreports⟩

theorem loggedUpdated_fill (key : Str) (events : List Event) (proc : Processor) (dev : Device) :
    LoggedUpdated key (events ++ [.fill proc dev]) ↔ LoggedUpdated key events := by
  rw [loggedUpdated_append]
  refine or_iff_left ?_
  rintro ⟨value, decision, hmem, -⟩
  cases List.mem_singleton.mp hmem

/-- Without a loop there is neither a pass nor a report. -/
theorem reports_of_not_visits {env : Env} {features : List Json} {st out : St}
    (hnone : ∀ key value vars s, ¬ Visits env features st key value vars s)
    (hevents : out.events = st.events ++ [.fill st.proc st.dev])
    (hreboot : out.proc.isRebootRequired = st.proc.isRebootRequired) :
    (∀ key, LoggedUpdated key out.events ↔
      LoggedUpdated key st.events ∨ ReportsUpdate env features st key) ∧
    (out.proc.isRebootRequired = true ↔ st.proc.isRebootRequired = true ∨
      (isMaintenanceEnabled env = true ∧ ∃ key, ReportsUpdate env features st key)) := by
  have hreports : ∀ key, ¬ ReportsUpdate env features st key := by
    rintro key ⟨value, vars, s, hvisits, -⟩
    exact hnone key value vars s hvisits
  refine ⟨fun key => ?_, ?_⟩
  · rw [hevents, loggedUpdated_fill, or_iff_left (hreports key)]
  · rw [hreboot, or_iff_left fun h => h.2.elim hreports]

/-- **What a run reports** is what its passes report. -/
theorem configDataPart_reports (env : Env) (features : List Json) (st : St) :
    (∀ key, LoggedUpdated key (processXconfResponseConfigDataPart env features st).state.events ↔
      LoggedUpdated key st.events ∨ ReportsUpdate env features st key) ∧
    ((processXconfResponseConfigDataPart env features st).state.proc.isRebootRequired = true ↔
      st.proc.isRebootRequired = true ∨
        (isMaintenanceEnabled env = true ∧ ∃ key, ReportsUpdate env features st key)) := by
  cases hmap : createConfigDataValueMap features st.proc.rfcKeyAndValueMap with
  | none =>
      have hout : processXconfResponseConfigDataPart env features st =
          .crash (st.log (.fill st.proc st.dev)) := by
        simp only [processXconfResponseConfigDataPart, St.log_proc, hmap]
      rw [hout]
      refine reports_of_not_visits ?_ rfl rfl
      rintro key value vars s ⟨map, -, -, hsome, -⟩
      cases hmap.symm.trans hsome
  | some map =>
      rw [configDataPart_eq hmap]
      by_cases hempty : map.isEmpty = true
      · rw [if_pos hempty]
        refine reports_of_not_visits ?_ rfl rfl
        rintro key value vars s ⟨map', earlier, later, hsome, hlist, -⟩
        obtain rfl : map = map' := Option.some.inj (hmap.symm.trans hsome)
        exact absurd hempty (by rw [isEmpty_eq_false hlist]; exact Bool.false_ne_true)
      · rw [if_neg hempty]
        have hclear := clearFrame_clearDB env (filled map st)
        obtain ⟨account, stash, hproc⟩ := hclear.proc
        have hlog : ∀ k, LoggedUpdated k (clearDB env (filled map st)).events ↔
            LoggedUpdated k st.events := by
          intro k
          rw [hclear.events]
          exact loggedUpdated_fill k _ _ _
        have hflag : (clearDB env (filled map st)).proc.isRebootRequired =
            st.proc.isRebootRequired := by
          rw [hproc]
          rfl
        obtain ⟨hlogged, hreboot⟩ := applyParams_reports env st hmap
        simp only [hflag, hlog] at hlogged hreboot
        -- what follows the loop changes neither the trace nor the flag
        cases hloop : Exec.forList (applyParam env) map.toList ⟨[], []⟩
            (clearDB env (filled map st)) with
        | ok vars t =>
            rw [hloop] at hlogged hreboot
            exact ⟨hlogged, hreboot⟩
        | crash t =>
            rw [hloop] at hlogged hreboot
            exact ⟨hlogged, hreboot⟩

/-! ### When the reports are faithful -/

theorem telling_iff (env : Env) {key value : Str} {vars : ApplyVars} {s t : St}
    (hsets : Sets env key value vars s t) :
    Telling env key value vars s t ↔
      (Reports env key value vars s ↔
        t.dev.Stores env.hostif key value ∧ value ≠ t.dev.servedValue env.hostif key) := by
  have hreports : Reports env key value vars s ↔
      (t.dev.getRFCParameter env.hostif key).1 = .success ∧ value ≠ comparedValue env key vars s := by
    constructor
    · rintro ⟨t', hsets', hstatus⟩
      obtain rfl := hsets.unique hsets'
      exact hstatus
    · intro hstatus
      exact ⟨t, hsets, hstatus⟩
  rw [hreports, Telling]
  by_cases hsame : value = comparedValue env key vars s
  · rw [if_pos hsame]
    constructor
    · intro htelling
      exact iff_of_false (fun h => h.2 hsame) fun h => h.2 (htelling h.1)
    · intro hiff hstores
      by_contra hne
      exact (hiff.mpr ⟨hstores, hne⟩).2 hsame
  · rw [if_neg hsame, and_iff_left hsame]

/-- **When the reports of a run are faithful.** The replies to each parameter that the run sets must tell
what becomes of it: the get before the set succeeds exactly when the hostif takes the set and the value
is a new one, unless the value is the one the manager compares it with, which must then be the real one
if the set is taken. -/
theorem faithful_iff (env : Env) (features : List Json) (proc : Processor) (dev : Device) :
    Faithful env features proc dev ↔ ∀ key value vars s t,
      Visits env features ⟨proc, dev, []⟩ key value vars s → Sets env key value vars s t →
        Telling env key value vars s t := by
  obtain ⟨hreports, hreboot⟩ := configDataPart_reports env features ⟨proc, dev, []⟩
  have hlogged : ∀ key, LoggedUpdated key (afterPart env features proc dev).events ↔
      ReportsUpdate env features ⟨proc, dev, []⟩ key := by
    intro key
    refine (hreports key).trans (or_iff_right ?_)
    rintro ⟨value, decision, hmem, -⟩
    exact List.not_mem_nil hmem
  constructor
  · intro hfaithful key value vars s t hvisits hsets
    have hsame := (hlogged key).symm.trans (hfaithful.updated key)
    rw [telling_iff env hsets]
    constructor
    · intro hreports
      obtain ⟨value', vars', s', t', hvisits', hsets', hstores⟩ :=
        hsame.mp ⟨value, vars, s, hvisits, hreports⟩
      obtain ⟨rfl, rfl, rfl⟩ := hvisits.unique hvisits'
      obtain rfl := hsets.unique hsets'
      exact hstores
    · intro hstores
      obtain ⟨value', vars', s', hvisits', hreports⟩ :=
        hsame.mpr ⟨value, vars, s, t, hvisits, hsets, hstores⟩
      obtain ⟨rfl, rfl, rfl⟩ := hvisits.unique hvisits'
      exact hreports
  · intro htelling
    have hsame : ∀ key, ReportsUpdate env features ⟨proc, dev, []⟩ key ↔
        StoresChange env features ⟨proc, dev, []⟩ key := by
      intro key
      constructor
      · rintro ⟨value, vars, s, hvisits, t, hsets, hstatus⟩
        have hiff := (telling_iff env hsets).mp (htelling key value vars s t hvisits hsets)
        exact ⟨value, vars, s, t, hvisits, hsets, hiff.mp ⟨t, hsets, hstatus⟩⟩
      · rintro ⟨value, vars, s, t, hvisits, hsets, hstores⟩
        have hiff := (telling_iff env hsets).mp (htelling key value vars s t hvisits hsets)
        exact ⟨value, vars, s, hvisits, hiff.mpr hstores⟩
    refine ⟨fun key => (hlogged key).trans (hsame key), hreboot.trans ?_⟩
    simp only [hsame]

/-- Maintenance is enabled, and every set is refused. -/
def refusing : Env :=
  { Env.plain with
    hostif := { Hostif.willing with setReply := fun _ _ _ _ => .failure }
    deviceProperties := none }

/-- Every get answers with the default value of its parameter. -/
def defaulting : Env :=
  { Env.plain with hostif := { Hostif.willing with
      getReply := fun _ _ => ⟨.errDefaultValue, true, some .string⟩ } }

def Event.logsUpdate : Event → Bool
  | .param _ _ decision => decision.updated
  | _ => false

theorem any_logsUpdate {key : Str} {events : List Event} (h : LoggedUpdated key events) :
    events.any Event.logsUpdate = true := by
  obtain ⟨value, decision, hmem, hupdated⟩ := h
  exact List.any_eq_true.mpr ⟨_, hmem, hupdated⟩

/-- A refused set raises the reboot flag, and one that is taken goes unreported. -/
theorem not_faithful :
    ¬ Faithful refusing alone .fresh .blank ∧ ¬ Faithful defaulting alone .fresh .blank := by
  constructor
  · intro hfaithful
    have hraised : (afterPart refusing alone .fresh .blank).proc.isRebootRequired = true := by
      decide +kernel
    rcases hfaithful.reboot.mp hraised with hbefore | ⟨-, key, _, _, _, _, -, -, hstores, -⟩
    · cases hbefore
    · obtain ⟨type, -, -, hset⟩ := hstores
      cases hset
  · intro hfaithful
    obtain ⟨hquiet, hchanged, htype, hvalue⟩ :
        (afterPart defaulting alone .fresh .blank).events.any Event.logsUpdate = false ∧
        (paramCheck defaulting "Device.X.B".toList "1".toList ⟨[], []⟩
          (cleared defaulting alone)).changed = true ∧
        (paramRead defaulting "Device.X.B".toList (cleared defaulting alone)).dev.reportedType
          defaulting.hostif "Device.X.B".toList = some .string ∧
        "1".toList ≠ (paramRead defaulting "Device.X.B".toList
          (cleared defaulting alone)).dev.servedValue defaulting.hostif "Device.X.B".toList := by
      decide +kernel
    have hvisits : Visits defaulting alone .fresh "Device.X.B".toList "1".toList ⟨[], []⟩
        (cleared defaulting alone) := visits_first (mapOf_eq (by decide)) toList_mapOf_alone
    have hother : "Device.X.B".toList ≠ bootstrapXconfUrlKeyStr := toList_ne (by simp)
    have hsets : Sets defaulting "Device.X.B".toList "1".toList ⟨[], []⟩ (cleared defaulting alone)
        (paramRead defaulting "Device.X.B".toList (cleared defaulting alone)) :=
      ⟨hchanged, by simp, if_neg hother⟩
    have hstores : StoresChange defaulting alone .fresh "Device.X.B".toList :=
      ⟨_, _, _, _, hvisits, hsets, ⟨.string, htype, by decide, rfl⟩, hvalue⟩
    have hlogged := any_logsUpdate ((hfaithful.updated _).mpr hstores)
    exact Bool.false_ne_true (hquiet.symm.trans hlogged)

end RfcMgr
