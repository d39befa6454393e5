import RfcMgr.Lifetime
import RfcMgr.UnchangedHash
import RfcMgr.Redirection
import RfcMgr.DeviceOnline

/-! A launch of `rfcMgr` (STB build), from `main` to its exit, and what the maintenance manager hears of
it: at most one report of the outcome, and the reboot that the applied parameters ask for. -/

namespace RfcMgr

open DeviceOnline (DeviceStatus checkDeviceIsOnline)

/-- What `SendEventToMaintenanceManager` is called with. -/
inductive MaintStatus where
  | rfcComplete
  | rfcError
  | criticalUpdate
  | rebootRequired
  | rfcInprogress
  deriving DecidableEq

def MaintStatus.code : MaintStatus → Nat
  | .rfcComplete => 2
  | .rfcError => 3
  | .criticalUpdate => 11
  | .rebootRequired => 12
  | .rfcInprogress => 14

/-- A launch: the start it may come to, and what decides whether it does. -/
structure Launch extends Boot where
  /-- `createDirectoryIfNotExists` on the directory of the manager. -/
  directoryReady : Bool
  /-- Another instance holds the lock file. -/
  locked : Bool
  /-- What the looks at the route flag find, and the resolver file. -/
  routeAvailable : Nat → Bool
  resolver : Option Str
  /-- The status of the script behind the run, when the script is there. -/
  postScript : Option Int

/-- What a launch leaves. -/
structure Report where
  signals : List MaintStatus
  /-- The telemetry markers that are counted. -/
  counts : List Str
  /-- What `RFCManagerPostProcess` has returned. -/
  postProcessed : Option ReturnCode
  dev : Device
  events : List Event

/-- Nothing is sent and nothing is run. -/
def Report.untouched (dev : Device) : Report := ⟨[], [], none, dev, []⟩

/-- Without a script there is nothing to fail. -/
def rfcManagerPostProcess (script : Option Int) : ReturnCode :=
  if script = some (-1) then .failure else .success

/-- The reports behind a run that has returned. -/
def statusesOf (rc : ReturnCode) (isRebootRequired : Bool) : List MaintStatus :=
  match rc with
  | .success => .rfcComplete :: if isRebootRequired then [.criticalUpdate, .rebootRequired] else []
  | _ => [.rfcError]

def countsOf (rc : ReturnCode) (isRebootRequired : Bool) : List Str :=
  match rc with
  | .success => if isRebootRequired then ["SYST_INFO_RFC_Reboot".toList] else []
  | _ => ["SYST_INFO_RFC_Error".toList]

/-- A start that fails reports nothing and runs no script; no value is a crash. -/
def rfcManagerProcess (l : Launch) (dev : Device) : Option ReturnCode × Report :=
  match l.start dev with
  | (.success, st) =>
      match l.request st with
      | .crash t => (none, ⟨[], [], none, t.dev, t.events⟩)
      | .ok rc t =>
          let postProcessResult := rfcManagerPostProcess l.postScript
          (some (if rc = .success then .success else .failure),
            ⟨statusesOf rc t.proc.isRebootRequired,
              countsOf rc t.proc.isRebootRequired ++
                (if postProcessResult = .success then ["SYST_INFO_RFC_PostProcess_Success".toList] else []),
              some postProcessResult, t.dev, t.events⟩)
  | (_, st) => (some .failure, ⟨[], [], none, st.dev, st.events⟩)

/-- `main` behind the fork: the exit status, and what the launch leaves. The result of the manager is
only logged. -/
def launch (l : Launch) (dev : Device) : Option Nat × Report :=
  if l.directoryReady = false then (some 1, .untouched dev)
  else if l.locked then (some 1, { Report.untouched dev with signals := [.rfcInprogress] })
  else
    match checkDeviceIsOnline l.routeAvailable l.resolver with
    | (.online, _) => ((rfcManagerProcess l dev).1.map fun _ => 0, (rfcManagerProcess l dev).2)
    | (.offline, posted) =>
        (some 0, { Report.untouched dev with signals := if posted then [.rfcError] else [] })

/-! ### The reboot flag and the trace -/

/-- A parameter is logged as updated on a device that may be rebooted for it. -/
def Event.asksReboot : Event → Bool
  | .param _ _ decision => decision.reboot
  | _ => false

/-- `t` differs from `s` in events, and the flag was raised by those that ask for a reboot. -/
def Raises (s t : St) : Prop :=
  ∃ es, t.events = s.events ++ es ∧
    t.proc.isRebootRequired = (s.proc.isRebootRequired || es.any Event.asksReboot)

section Raises

variable {s t u : St}

theorem Raises.of_eq (hevents : t.events = s.events)
    (hflag : t.proc.isRebootRequired = s.proc.isRebootRequired) : Raises s t :=
  ⟨[], by rw [hevents, List.append_nil], by rw [hflag, List.any_nil, Bool.or_false]⟩

theorem Raises.refl (s : St) : Raises s s := .of_eq rfl rfl

theorem Raises.trans (hst : Raises s t) (htu : Raises t u) : Raises s u := by
  obtain ⟨es, hes, hflag⟩ := hst
  obtain ⟨es', hes', hflag'⟩ := htu
  exact ⟨es ++ es', by rw [hes', hes, List.append_assoc], by rw [hflag', hflag, List.any_append,
    Bool.or_assoc]⟩

/-- Events that ask for no reboot, with a flag that stays. -/
theorem Raises.of_quiet {es : List Event} (hevents : t.events = s.events ++ es)
    (hquiet : ∀ e ∈ es, e.asksReboot = false)
    (hflag : t.proc.isRebootRequired = s.proc.isRebootRequired) : Raises s t := by
  have hnone : es.any Event.asksReboot = false := by
    rw [List.any_eq_false]
    exact fun e he => by simp [hquiet e he]
  exact ⟨es, hevents, by rw [hflag, hnone, Bool.or_false]⟩

theorem raises_log {e : Event} (he : e.asksReboot = false) : Raises s (s.log e) := by
  refine .of_quiet rfl (fun e' he' => ?_) rfl
  rwa [List.mem_singleton.mp he']

theorem Asked.raises {es : List Event} (h : Asked s t es)
    (hquiet : ∀ e ∈ es, e.asksReboot = false) : Raises s t := by
  obtain ⟨url, bkupHash, hproc⟩ := h.proc
  exact .of_quiet h.events hquiet (by rw [hproc])

theorem raises_validated (env : Env) (key value : Str) (st : St) :
    Raises st (validated env key value st).state := by
  unfold validated
  split
  · have hvalidates := validates_processXconfUrl env value st
    obtain ⟨b, flag, hproc⟩ := hvalidates.proc
    obtain ⟨es, hes, hall⟩ := hvalidates.events
    refine .of_quiet hes (fun e he => ?_) (by rw [hproc])
    obtain ⟨url, rfl⟩ := hall e he
    rfl
  · exact .refl st

/-- A pass raises the flag just when it logs that a reboot is needed. -/
theorem raises_applyParam (env : Env) (pair : Str × Str) (vars : ApplyVars) (st : St) :
    Raises st (applyParam env pair vars st).state := by
  obtain ⟨key, value⟩ := pair
  have hread : Raises st (paramRead env key st) := .of_eq rfl rfl
  have hvalid := hread.trans (raises_validated env key value (paramRead env key st))
  have hstep := applyParam_step env key value vars st
  generalize applyParam env (key, value) vars st = out at hstep ⊢
  cases hstep with
  | unchanged | rejected => exact hread.trans (raises_log rfl)
  | crashed _ _ hvalidated => rwa [hvalidated] at hvalid
  | invalid _ _ hvalidated =>
      rw [hvalidated] at hvalid
      exact hvalid.trans (raises_log rfl)
  | @written t _ _ hvalidated =>
      rw [hvalidated] at hvalid
      refine hvalid.trans ⟨[.param key value (setParam env key value
        (paramCheck env key value vars st).currentValue t).1], rfl, ?_⟩
      rw [List.any_cons, List.any_nil, Bool.or_false]
      rfl

theorem raises_configDataPart (env : Env) (features : List Json) (st : St) :
    Raises st (processXconfResponseConfigDataPart env features st).state := by
  have hfill : Raises st (st.log (.fill st.proc st.dev)) := raises_log rfl
  cases hfilled : createConfigDataValueMap features st.proc.rfcKeyAndValueMap with
  | none =>
      simp only [processXconfResponseConfigDataPart, St.log_proc, hfilled]
      exact hfill
  | some map =>
      rw [configDataPart_eq hfilled]
      have hmap : Raises st (filled map st) := hfill.trans (.of_eq rfl rfl)
      split
      · exact hmap
      · have hclear := clearFrame_clearDB env (filled map st)
        obtain ⟨a, stash, hproc⟩ := hclear.proc
        have hcleared : Raises (filled map st) (clearDB env (filled map st)) :=
          .of_eq hclear.events (by rw [hproc])
        refine Exec.state_bind (P := Raises st) ((hmap.trans hcleared).trans ?_) ?_
        · exact Exec.forList_state Raises.refl (fun _ _ _ => Raises.trans)
            (fun pair _ vars s => raises_applyParam env pair vars s) ..
        · exact fun vars s _ hs => hs.trans (.of_eq rfl rfl)

/-- The apply step up to what is stored behind it. -/
theorem raises_processJsonResponse (env : Env) (body : Body) (st : St) :
    Raises st (processJsonResponse env body st).state := by
  have hpart : ∀ features, Raises st
      (processXconfResponseConfigDataPart env features (featuresWritten features body st)).state := by
    intro features
    have hwritten : Raises st (featuresWritten features body st) :=
      (raises_log (e := .apply body) rfl).trans (.of_eq rfl rfl)
    exact hwritten.trans (raises_configDataPart env features _)
  have hstep := processJsonResponse_step env body st
  generalize processJsonResponse env body st = out at hstep ⊢
  cases hstep with
  | rejected => exact raises_log rfl
  | @crashed features t _ hcrash =>
      have h := hpart features
      rwa [hcrash] at h
  | @applied features t _ hdone =>
      have h := hpart features
      rw [hdone] at h
      exact h.trans ((Raises.of_eq rfl rfl).trans (raises_log rfl))

end Raises

/-! ### The flag at the end of a run -/

/-- The run applies a response whose hash is what `bkup_hash` holds behind its parameters. -/
def HashKept (env : Env) (attempts : Nat → Attempt) (st : St) : Prop :=
  ∃ i s p features t hash, AppliesAt env attempts st i s p features t ∧
    configSetHashValue (attempts i).header = some hash ∧ stringCaseCompare t.proc.bkupHash hash = true

/-- Some parameter of the run asked for a reboot. -/
def RebootAsked (events : List Event) : Prop := ∃ e ∈ events, e.asksReboot = true

theorem rebootAsked_iff {events : List Event} :
    RebootAsked events ↔ events.any Event.asksReboot = true := List.any_eq_true.symm

theorem not_rebootAsked {events : List Event} (h : ∀ e ∈ events, e.Unapplied) : ¬ RebootAsked events := by
  rintro ⟨e, he, hasks⟩
  have hunapplied := h e he
  cases e with
  | param => exact hunapplied
  | _ => cases hasks

section Run

variable {env : Env} {attempts : Nat → Attempt} {st s s' t t' : St} {i i' : Nat} {p p' : Processor}
  {features features' : List Json}

/-- A run applies the response of one pass. -/
theorem AppliesAt.unique (h : AppliesAt env attempts st i s p features t)
    (h' : AppliesAt env attempts st i' s' p' features' t') (hfresh : Fresh st) : i' = i ∧ t' = t := by
  have hbreaks : ∀ {i s p features t}, AppliesAt env attempts st i s p features t →
      (requestPass env attempts i s).value? = some (some .success) :=
    fun h => by rw [(h.run_eq hfresh).1]; rfl
  obtain ⟨rfl, rfl⟩ := h.makes.passes.unique (hbreaks h) h'.makes.passes (hbreaks h')
  obtain rfl := Option.some.inj (h.pre.symm.trans h'.pre)
  obtain rfl := Option.some.inj (h.body.symm.trans h'.body)
  exact ⟨rfl, (Exec.ok.inj (h.part.symm.trans h'.part)).2.symm⟩

/-- Storing the outcome lowers the flag when the hash is the one that was kept. -/
theorem storeOutcome_reboot_iff (env : Env) (header : Str) (st : St) :
    (storeOutcome env header .success st).proc.isRebootRequired = true ↔
      st.proc.isRebootRequired = true ∧ ¬ ∃ hash, configSetHashValue header = some hash ∧
        stringCaseCompare st.proc.bkupHash hash = true := by
  cases hheader : configSetHashValue header with
  | none =>
      have hproc : (storeOutcome env header .success st).proc = st.proc := by
        have htime : ∀ time u, (updateTimeInDB env time u).proc = u.proc := fun _ _ => rfl
        have hmetadata : ∀ u, (storeXconfEndpointMetadata env u).proc = u.proc := fun _ => rfl
        rw [storeOutcome, hmetadata, updateHashAndTimeInDB, hheader, htime]
      rw [hproc]
      refine ⟨fun h => ⟨h, ?_⟩, And.left⟩
      rintro ⟨hash, hnone, -⟩
      cases hnone
  | some hash =>
      have hsame : (∃ hash', some hash = some hash' ∧
          stringCaseCompare st.proc.bkupHash hash' = true) ↔
          stringCaseCompare st.proc.bkupHash hash = true := by
        constructor
        · rintro ⟨hash', heq, h⟩
          rwa [Option.some.inj heq]
        · exact fun h => ⟨hash, rfl, h⟩
      rw [storeOutcome_reboot hheader, hsame]
      split
      next h => exact iff_of_false Bool.false_ne_true fun hand => hand.2 h
      next h => exact ⟨fun hraised => ⟨hraised, h⟩, And.left⟩

/-- **The flag at the end of a run** that applies a response. -/
theorem AppliesAt.rebootFlag_iff (h : AppliesAt env attempts st i s p features t) (hfresh : Fresh st)
    (hlow : s.proc.isRebootRequired = false) :
    (processRuntimeFeatureControlReq env attempts st).state.proc.isRebootRequired = true ↔
      RebootAsked (processRuntimeFeatureControlReq env attempts st).state.events ∧
        ¬ HashKept env attempts st := by
  have hkept : HashKept env attempts st ↔ ∃ hash, configSetHashValue (attempts i).header = some hash ∧
      stringCaseCompare t.proc.bkupHash hash = true := by
    constructor
    · rintro ⟨i', s', p', features', t', hash, h', hheader, hsame⟩
      obtain ⟨rfl, rfl⟩ := h.unique h' hfresh
      exact ⟨hash, hheader, hsame⟩
    · rintro ⟨hash, hheader, hsame⟩
      exact ⟨i, s, p, features, t, hash, h, hheader, hsame⟩
  have hs : Lowered s := ⟨(h.makes.unmixed hfresh).flag, hlow⟩
  have hstart : Raises (preProcessed (attempts i) (received env (attempts i) s) p)
      (appliedState (attempts i) features
        (preProcessed (attempts i) (received env (attempts i) s) p).dev t) := by
    have hraises := raises_processJsonResponse env (attempts i).body
      (preProcessed (attempts i) (received env (attempts i) s) p)
    rwa [h.processJsonResponse_eq, Exec.state_ok] at hraises
  obtain ⟨es, hes, hflag⟩ := hstart
  have hbefore : ¬ RebootAsked (preProcessed (attempts i) (received env (attempts i) s) p).events :=
    not_rebootAsked (((h.makes.unmixed hfresh).received env (attempts i)).preProcessed h.pre).events
  rw [(hs.preProcessed h.pre).reboot, Bool.false_or] at hflag
  rw [(h.run_eq hfresh).2, Exec.state_ok, storeOutcome_reboot_iff, hflag, hkept]
  refine and_congr ?_ Iff.rfl
  rw [← rebootAsked_iff, storeOutcome_events, hes]
  constructor
  · rintro ⟨e, he, hasks⟩
    exact ⟨e, List.mem_append_left _ (List.mem_append_right _ he), hasks⟩
  · rintro ⟨e, he, hasks⟩
    rcases List.mem_append.mp he with he | he
    · rcases List.mem_append.mp he with he | he
      · exact absurd ⟨e, he, hasks⟩ hbefore
      · exact ⟨e, he, hasks⟩
    · obtain rfl := List.mem_singleton.mp he
      cases hasks

/-- A response that is applied with success has dealt with its parameters. -/
theorem part_of_applyResponse {a : Attempt} (h : applyResponse env a s = .ok (some .success) t) :
    ∃ features u, a.body.features = some features ∧
      processXconfResponseConfigDataPart env features (featuresWritten features a.body s) = .ok () u := by
  obtain ⟨rc, u, hjson, hrest⟩ := Exec.bind_eq_ok.mp h
  have hstep := processJsonResponse_step env a.body s
  rw [hjson] at hstep
  cases hstep with
  | rejected => cases hrest
  | applied hfeatures hpart => exact ⟨_, _, hfeatures, hpart⟩

/-- A run that returns with success and applies nothing was told that nothing has changed. -/
theorem run_unapplied (hfresh : Fresh st) (hlow : st.proc.isRebootRequired = false)
    (hnone : ¬ ∃ i s p features t, AppliesAt env attempts st i s p features t) :
    (processRuntimeFeatureControlReq env attempts st).value? = some .success →
      (processRuntimeFeatureControlReq env attempts st).state.proc.isRebootRequired = false ∧
        ¬ RebootAsked (processRuntimeFeatureControlReq env attempts st).state.events := by
  refine run_passes_rule (P := fun _ s => Lowered s ∧ Unmixed s)
    (Q := fun out => out.value? = some .success →
      out.state.proc.isRebootRequired = false ∧ ¬ RebootAsked out.state.events)
    ⟨⟨hfresh.flag, hlow⟩, hfresh.unmixed⟩ (fun _ _ h => h.1.flag)
    (fun _ _ _ _ h hpass => ⟨lowered_round h.1 hpass, unmixed_round h.2 hpass⟩)
    (fun _ _ hvalue => by cases hvalue) (fun _ _ hvalue => by cases hvalue) ?_
    (fun _ _ _ _ _ _ hvalue => by cases hvalue)
  intro i s r t hmakes ⟨hlowered, hunmixed⟩ hpass hvalue
  obtain rfl : r = .success := Option.some.inj hvalue
  generalize hout : (Exec.ok (some ReturnCode.success) t : Exec St (Option ReturnCode)) = out at hpass
  cases hpass with
  | noBuffers | noHashParam | notFound | failed | crashed | redirected | resent => cases hout
  | notModified =>
      obtain ⟨-, rfl⟩ := Exec.ok.inj hout
      obtain ⟨_, _, _, _, hreplied⟩ := asked_replied env (attempts i) s
      exact ⟨(hlowered.asked hreplied).reboot,
        not_rebootAsked (hunmixed.asked hreplied unapplied_exchange).events⟩
  | applied p hanswered hpre hstate =>
      obtain ⟨features, u, hfeatures, hpart⟩ := part_of_applyResponse hout.symm
      exact absurd ⟨i, s, p, features, u, hmakes, hanswered, hpre, hstate, hfeatures, hpart⟩ hnone

/-- **When a run that returns with success asks for a reboot.** -/
theorem run_reboot_iff (hfresh : Fresh st) (hlow : st.proc.isRebootRequired = false)
    (hsuccess : (processRuntimeFeatureControlReq env attempts st).value? = some .success) :
    (processRuntimeFeatureControlReq env attempts st).state.proc.isRebootRequired = true ↔
      RebootAsked (processRuntimeFeatureControlReq env attempts st).state.events ∧
        ¬ HashKept env attempts st := by
  by_cases happlies : ∃ i s p features t, AppliesAt env attempts st i s p features t
  · obtain ⟨i, s, p, features, t, happlies⟩ := happlies
    have hlowered : Lowered s := happlies.makes.invariant ⟨hfresh.flag, hlow⟩ (fun _ h => h.flag)
      fun _ _ _ h hpass => lowered_round h hpass
    exact happlies.rebootFlag_iff hfresh hlowered.reboot
  · obtain ⟨hflag, hquiet⟩ := run_unapplied hfresh hlow happlies hsuccess
    exact iff_of_false (by rw [hflag]; exact Bool.false_ne_true) fun h => hquiet h.1

end Run

/-! ### What is heard of a launch -/

namespace Launch

variable (l : Launch) (dev : Device)

/-- The launch has its directory, and no other instance runs. -/
def Admitted : Prop := l.directoryReady = true ∧ l.locked = false

instance : Decidable l.Admitted := inferInstanceAs (Decidable (_ ∧ _))

/-- The run that the launch comes to. -/
def runOf : Option (Exec St ReturnCode) :=
  if l.Admitted ∧ (checkDeviceIsOnline l.routeAvailable l.resolver).1 = .online then
    match l.start dev with
    | (.success, st) => some (l.request st)
    | _ => none
  else none

/-- The run applies a response whose hash was kept. -/
def KeepsHash : Prop :=
  ∃ st, l.start dev = (.success, st) ∧
    HashKept (l.requestEnv st) l.attempts (isSecureDbgSrvUnlocked l.platform l.env st).2

/-- How a launch ends. -/
inductive Ends : Option Nat × Report → Prop where
  | unready (hdirectory : l.directoryReady = false) : Ends (some 1, .untouched dev)
  | refused (hdirectory : l.directoryReady = true) (hlocked : l.locked = true) :
      Ends (some 1, { Report.untouched dev with signals := [.rfcInprogress] })
  | offline (posted : Bool) (hadmitted : l.Admitted)
      (hoffline : checkDeviceIsOnline l.routeAvailable l.resolver = (.offline, posted)) :
      Ends (some 0, { Report.untouched dev with signals := if posted then [.rfcError] else [] })
  | idle (st : St) (hadmitted : l.Admitted)
      (honline : (checkDeviceIsOnline l.routeAvailable l.resolver).1 = .online)
      (hnone : l.runOf dev = none) : Ends (some 0, ⟨[], [], none, st.dev, st.events⟩)
  | crashed (t : St) (hrun : l.runOf dev = some (.crash t)) :
      Ends (none, ⟨[], [], none, t.dev, t.events⟩)
  | returned (rc : ReturnCode) (t : St) (counts : List Str) (hrun : l.runOf dev = some (.ok rc t)) :
      Ends (some 0, ⟨statusesOf rc t.proc.isRebootRequired, counts,
        some (rfcManagerPostProcess l.postScript), t.dev, t.events⟩)

variable {l dev}

theorem runOf_eq_some {out : Exec St ReturnCode} (h : l.runOf dev = some out) :
    (l.Admitted ∧ (checkDeviceIsOnline l.routeAvailable l.resolver).1 = .online) ∧
      ∃ st, l.start dev = (.success, st) ∧ l.request st = out := by
  rw [runOf] at h
  split at h
  next hreached =>
    split at h
    next st hstart => exact ⟨hreached, st, hstart, Option.some.inj h⟩
    next => cases h
  next => cases h

theorem runOf_eq_none (h : ¬ (l.Admitted ∧
    (checkDeviceIsOnline l.routeAvailable l.resolver).1 = .online)) : l.runOf dev = none := if_neg h

end Launch

theorem launch_ends (l : Launch) (dev : Device) : l.Ends dev (launch l dev) := by
  rw [launch]
  split
  next hdirectory => exact .unready hdirectory
  next hdirectory =>
    have hready : l.directoryReady = true := Bool.of_not_eq_false hdirectory
    split
    next hlocked => exact .refused hready hlocked
    next hlocked =>
      have hadmitted : l.Admitted := ⟨hready, Bool.eq_false_iff.mpr hlocked⟩
      split
      next posted hpair =>
        have honline : (checkDeviceIsOnline l.routeAvailable l.resolver).1 = .online := by rw [hpair]
        rw [rfcManagerProcess]
        split
        next st hstart =>
          have hrun : l.runOf dev = some (l.request st) := by
            rw [Launch.runOf, if_pos ⟨hadmitted, honline⟩, hstart]
          split
          next t hrequest => exact .crashed t (hrequest ▸ hrun)
          next rc t hrequest => exact .returned rc t _ (hrequest ▸ hrun)
        next rc st hsuccess hstart =>
          have hnone : l.runOf dev = none := by
            rw [Launch.runOf, if_pos ⟨hadmitted, honline⟩, hstart]
            split
            next heq => exact absurd (Prod.mk.inj heq).1 hsuccess
            next => rfl
          exact .idle st hadmitted honline hnone
      next posted hoffline => exact .offline posted hadmitted hoffline

/-- The outcome of a launch; the others come with a completion. -/
def MaintStatus.isOutcome : MaintStatus → Bool
  | .rfcComplete | .rfcError | .rfcInprogress => true
  | .criticalUpdate | .rebootRequired => false

/-- What may be concluded from the reports of a launch. -/
structure Heard (l : Launch) (dev : Device) (exit : Option Nat) (r : Report) : Prop where
  complete : .rfcComplete ∈ r.signals ↔ ∃ t, l.runOf dev = some (.ok .success t)
  error : .rfcError ∈ r.signals ↔ (∃ rc t, l.runOf dev = some (.ok rc t) ∧ rc ≠ .success) ∨
    l.Admitted ∧ checkDeviceIsOnline l.routeAvailable l.resolver = (.offline, true)
  inProgress : .rfcInprogress ∈ r.signals ↔ l.directoryReady = true ∧ l.locked = true
  reboot : .rebootRequired ∈ r.signals ↔
    .rfcComplete ∈ r.signals ∧ RebootAsked r.events ∧ ¬ l.KeepsHash dev
  critical : .criticalUpdate ∈ r.signals ↔ .rebootRequired ∈ r.signals
  once : (r.signals.filter MaintStatus.isOutcome).length ≤ 1
  silent : r.signals = [] ↔ l.directoryReady = false ∨ l.Admitted ∧
    (checkDeviceIsOnline l.routeAvailable l.resolver = (.offline, false) ∨
      (checkDeviceIsOnline l.routeAvailable l.resolver).1 = .online ∧
        (l.runOf dev = none ∨ ∃ t, l.runOf dev = some (.crash t)))
  exit : exit = some 0 ↔ l.Admitted ∧ ∀ t, l.runOf dev ≠ some (.crash t)

theorem mem_statusesOf (status : MaintStatus) (rc : ReturnCode) (flag : Bool) :
    status ∈ statusesOf rc flag ↔
      match status with
      | .rfcComplete => rc = .success
      | .rfcError => rc ≠ .success
      | .criticalUpdate | .rebootRequired => rc = .success ∧ flag = true
      | .rfcInprogress => False := by
  cases status <;> cases rc <;> cases flag <;> decide

theorem statusesOf_once (rc : ReturnCode) (flag : Bool) :
    ((statusesOf rc flag).filter MaintStatus.isOutcome).length = 1 := by
  cases rc <;> cases flag <;> rfl

theorem statusesOf_ne_nil (rc : ReturnCode) (flag : Bool) : statusesOf rc flag ≠ [] := by
  cases rc <;> exact List.cons_ne_nil _ _

/-- The flag of a run is that of its parameters. -/
theorem Launch.rebootFlag_iff {l : Launch} {dev : Device} {t : St}
    (hrun : l.runOf dev = some (.ok .success t)) :
    t.proc.isRebootRequired = true ↔ RebootAsked t.events ∧ ¬ l.KeepsHash dev := by
  obtain ⟨-, st, hstart, hrequest⟩ := Launch.runOf_eq_some hrun
  have hstarted := (initialize_started hstart).unlocked l.env
  have hvalue : (processRuntimeFeatureControlReq (l.requestEnv st) l.attempts
      (isSecureDbgSrvUnlocked l.platform l.env st).2).value? = some .success := congrArg Exec.value? hrequest
  have hflag := run_reboot_iff hstarted.fresh hstarted.reboot hvalue
  rw [show processRuntimeFeatureControlReq _ _ _ = _ from hrequest, Exec.state_ok] at hflag
  have hkeeps : l.KeepsHash dev ↔
      HashKept (l.requestEnv st) l.attempts (isSecureDbgSrvUnlocked l.platform l.env st).2 := by
    constructor
    · rintro ⟨st', hstart', hkept⟩
      obtain ⟨-, rfl⟩ := Prod.mk.inj (hstart.symm.trans hstart')
      exact hkept
    · exact fun hkept => ⟨st, hstart, hkept⟩
  rw [hflag, hkeeps]

/-- A launch has one outcome at most. -/
theorem Launch.Ends.once {l : Launch} {dev : Device} {out : Option Nat × Report} (h : l.Ends dev out) :
    (out.2.signals.filter MaintStatus.isOutcome).length ≤ 1 := by
  cases h with
  | unready | idle | crashed => exact Nat.zero_le 1
  | refused => exact List.length_filter_le _ _
  | offline posted =>
      refine (List.length_filter_le _ _).trans ?_
      cases posted
      · exact Nat.zero_le 1
      · exact Nat.le_refl 1
  | returned rc t => exact (statusesOf_once rc t.proc.isRebootRequired).le

theorem not_offline {l : Launch}
    (honline : (checkDeviceIsOnline l.routeAvailable l.resolver).1 = .online) (posted : Bool) :
    checkDeviceIsOnline l.routeAvailable l.resolver ≠ (.offline, posted) := by
  intro hpair
  rw [hpair] at honline
  cases honline

/-- **What the maintenance manager hears of a launch**, whatever the device and the server do: at most one
outcome, a completion just when the run has succeeded, and then the wish for a reboot just when one of
its parameters has asked for it under a hash that is not the stored one. -/
theorem launch_heard (l : Launch) (dev : Device) :
    Heard l dev (launch l dev).1 (launch l dev).2 := by
  have hends := launch_ends l dev
  have honce := hends.once
  generalize launch l dev = out at hends honce
  cases hends with
  | unready hdirectory =>
      have hnot : ¬ l.Admitted := fun h => absurd (hdirectory.symm.trans h.1) Bool.false_ne_true
      have hnone : l.runOf dev = none := Launch.runOf_eq_none fun h => hnot h.1
      refine ⟨?_, ?_, ?_, ?_, ?_, honce, ?_, ?_⟩ <;> simp [Report.untouched, hnone, hnot, hdirectory]
  | refused hdirectory hlocked =>
      have hnot : ¬ l.Admitted := fun h => absurd (h.2.symm.trans hlocked) Bool.false_ne_true
      have hnone : l.runOf dev = none := Launch.runOf_eq_none fun h => hnot h.1
      refine ⟨?_, ?_, ?_, ?_, ?_, honce, ?_, ?_⟩ <;>
        simp [Report.untouched, hnone, hnot, hdirectory, hlocked]
  | offline posted hadmitted hoffline =>
      have hnone : l.runOf dev = none := Launch.runOf_eq_none fun h => not_offline h.2 posted hoffline
      obtain ⟨hready, hfree⟩ := id hadmitted
      refine ⟨?_, ?_, ?_, ?_, ?_, honce, ?_, ?_⟩ <;> cases posted <;>
        simp [Report.untouched, hnone, hadmitted, hoffline, hready, hfree]
  | idle st hadmitted honline hnone =>
      obtain ⟨hready, hfree⟩ := id hadmitted
      refine ⟨?_, ?_, ?_, ?_, ?_, honce, ?_, ?_⟩ <;>
        simp [hnone, hadmitted, honline, hready, hfree, not_offline honline]
  | crashed t hrun =>
      obtain ⟨⟨hadmitted, honline⟩, -⟩ := Launch.runOf_eq_some hrun
      obtain ⟨hready, hfree⟩ := id hadmitted
      refine ⟨?_, ?_, ?_, ?_, ?_, honce, ?_, ?_⟩ <;>
        simp [hrun, hadmitted, honline, hready, hfree, not_offline honline]
  | returned rc t counts hrun =>
      obtain ⟨⟨hadmitted, honline⟩, -⟩ := Launch.runOf_eq_some hrun
      obtain ⟨hready, hfree⟩ := id hadmitted
      have hreboot : rc = .success → (t.proc.isRebootRequired = true ↔
          RebootAsked t.events ∧ ¬ l.KeepsHash dev) := by
        rintro rfl
        exact Launch.rebootFlag_iff hrun
      refine ⟨?_, ?_, ?_, ?_, ?_, honce, ?_, ?_⟩ <;>
        simp +contextual [hrun, hadmitted, honline, hready, hfree, not_offline honline, mem_statusesOf,
          statusesOf_ne_nil, hreboot]

end RfcMgr
