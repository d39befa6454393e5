import RfcMgr.Initialise
import RfcMgr.PersistedFiles
import RfcMgr.FeatureFiles
import RfcMgr.RunStateMachine
import RfcMgr.KeyValueLines

/-! Starts of the manager on one device, one after the other: each sets up a new processor from what the
earlier ones left, asks, and applies. What the files say later is what the last applied response left in
them, whatever happened in between. -/

namespace RfcMgr

/-- The successful apply steps of a trace. -/
def applications (es : List Event) : List (Body × Device) :=
  es.filterMap fun e =>
    match e with
    | .applied body dev => some (body, dev)
    | _ => none

theorem applications_append (es es' : List Event) :
    applications (es ++ es') = applications es ++ applications es' := List.filterMap_append ..

theorem mem_applications {es : List Event} {body : Body} {dev : Device} :
    (body, dev) ∈ applications es ↔ .applied body dev ∈ es := by
  rw [applications, List.mem_filterMap]
  constructor
  · rintro ⟨e, he, happlied⟩
    cases e with
    | applied body' dev' =>
        obtain ⟨rfl, rfl⟩ := Prod.mk.inj (Option.some.inj happlied)
        exact he
    | request | response | validationRequest | preProcessed | apply | fill | param | stored =>
        cases happlied
  · exact fun h => ⟨_, h, rfl⟩

theorem applications_eq_nil {es : List Event} (h : ∀ body dev, .applied body dev ∉ es) :
    applications es = [] := by
  rw [List.eq_nil_iff_forall_not_mem]
  rintro ⟨body, dev⟩ hmem
  exact h body dev (mem_applications.mp hmem)

theorem applications_of_unapplied {es : List Event} (h : ∀ e ∈ es, e.Unapplied) :
    applications es = [] :=
  applications_eq_nil fun _ _ hmem => h _ hmem

/-! ### The files over one run -/

/-- A file that neither a reply nor the clearing of the store erases. -/
def Owned (filename : Str) : Prop := ¬ Tracked filename ∧ filename ≠ tr181StoreFile

instance (filename : Str) : Decidable (Owned filename) := inferInstanceAs (Decidable (_ ∧ _))

/-- How the files stand at the head of a pass: at most some that replies erase are gone. -/
structure Untold (firmware : Str) (dev : Device) (st : St) : Prop where
  unmixed : Unmixed st
  firmwareVersion : st.proc.firmwareVersion = firmware
  owned : ∀ filename, ¬ Tracked filename → st.dev.files filename = dev.files filename
  tracked : ∀ filename, Tracked filename →
    st.dev.files filename = none ∨ st.dev.files filename = dev.files filename

section Untold

variable {firmware : Str} {dev : Device} {env : Env} {a : Attempt} {s t : St}

theorem Untold.of_files (h : Untold firmware dev s) (hunmixed : Unmixed t)
    (hfirmware : t.proc.firmwareVersion = s.proc.firmwareVersion)
    (hfiles : ∀ filename, t.dev.files filename = s.dev.files filename ∨
      Tracked filename ∧ t.dev.files filename = none) : Untold firmware dev t where
  unmixed := hunmixed
  firmwareVersion := hfirmware.trans h.firmwareVersion
  owned filename hnot := by
    obtain hsame | ⟨htracked, -⟩ := hfiles filename
    · exact hsame.trans (h.owned filename hnot)
    · exact absurd htracked hnot
  tracked filename htracked := by
    obtain hsame | ⟨-, hgone⟩ := hfiles filename
    · rw [hsame]
      exact h.tracked filename htracked
    · exact .inl hgone

theorem cleanAllFile_files_or (dev : Device) (filename : Str) :
    dev.cleanAllFile.files filename = dev.files filename ∨
      Tracked filename ∧ dev.cleanAllFile.files filename = none := by
  by_cases hcleaned : ".RFC_".toList.isPrefixOf filename = true ∨ filename = varFile
  · exact .inr ⟨hcleaned.imp_right .inl, Device.cleanAllFile_files hcleaned⟩
  · exact .inl (if_neg hcleaned)

theorem received_files_or (env : Env) (a : Attempt) (st : St) (filename : Str) :
    (received env a st).dev.files filename = st.dev.files filename ∨
      Tracked filename ∧ (received env a st).dev.files filename = none := by
  by_cases htracked : Tracked filename
  · exact .inr ⟨htracked, erased_received env a st filename htracked⟩
  · left
    have hlist : filename ≠ tr181FileList := fun h => htracked (.inr (.inr h))
    rw [received, St.onDev_dev, Device.remove_files_of_ne hlist]
    obtain hsame | ⟨h, -⟩ := cleanAllFile_files_or (replied env a st).dev filename
    · rw [hsame, files_replied]
    · exact absurd h htracked

/-- Neither the firmware nor the one the last response was applied under changes. -/
structure SameFirmware (p p' : Processor) : Prop where
  firmwareVersion : p'.firmwareVersion = p.firmwareVersion
  lastFirmware : p'.lastFirmware = p.lastFirmware

theorem SameFirmware.trans {p p' p'' : Processor} (h : SameFirmware p p') (h' : SameFirmware p' p'') :
    SameFirmware p p'' :=
  ⟨h'.firmwareVersion.trans h.firmwareVersion, h'.lastFirmware.trans h.lastFirmware⟩

theorem Asked.sameFirmware {es : List Event} (h : Asked s t es) : SameFirmware s.proc t.proc := by
  obtain ⟨url, bkupHash, hproc⟩ := h.proc
  rw [hproc]
  exact ⟨rfl, rfl⟩

theorem preProcess_sameFirmware {body : Body} {p p' : Processor}
    (h : preProcessJsonResponse env body p = some p') : SameFirmware p p' := by
  obtain ⟨features, map, -, -, -, rfl⟩ | ⟨-, -, rfl⟩ | ⟨rfl, -⟩ := preProcessJsonResponse_cases h
  · obtain ⟨_, _, _, _, _, _, _, heq, -⟩ :=
      preProcessFilled_spec env { p with rfcKeyAndValueMap := map }
    rw [heq]
    exact ⟨rfl, rfl⟩
  · exact ⟨rfl, rfl⟩
  · exact ⟨rfl, rfl⟩

/-- The passes that go round again keep both. -/
theorem sameFirmware_round (hpass : Pass env a s (.ok none t)) : SameFirmware s.proc t.proc := by
  obtain ⟨_, _, _, _, hreplied⟩ := asked_replied env a s
  obtain ⟨_, _, _, _, hreceived⟩ := asked_received env a s
  generalize hout : Exec.ok none t = out at hpass
  cases hpass with
  | noBuffers | notModified | crashed => cases hout
  | noHashParam =>
      cases hout
      exact (asked_resolved env a s).sameFirmware
  | notFound | failed =>
      cases hout
      exact hreplied.sameFirmware
  | redirected p _ hpre =>
      cases hout
      exact hreceived.sameFirmware.trans (preProcess_sameFirmware hpre)
  | resent p _ hpre =>
      cases hout
      obtain ⟨hfirmware, hlast⟩ := hreceived.sameFirmware.trans (preProcess_sameFirmware hpre)
      exact ⟨hfirmware, hlast⟩
  | applied => exact absurd hout applyResponse_ne_none

/-- The first look at a response keeps what holds of the files. -/
theorem Untold.preProcessed {p : Processor} (h : Untold firmware dev s)
    (hpre : preProcessJsonResponse env a.body (received env a s).proc = some p) :
    Untold firmware dev (preProcessed a (received env a s) p) := by
  obtain ⟨_, _, _, _, hasked⟩ := asked_received env a s
  refine h.of_files ((h.unmixed.received env a).preProcessed hpre) ?_ (received_files_or env a s)
  exact (hasked.sameFirmware.trans (preProcess_sameFirmware hpre)).firmwareVersion

/-- A pass keeps it up to its end or up to the apply step. -/
theorem untold_pass (h : Untold firmware dev s) {out : Exec St (Option ReturnCode)}
    (hpass : Pass env a s out) :
    Untold firmware dev out.state ∨ ∃ p, Untold firmware dev (preProcessed a (received env a s) p) ∧
      out = applyResponse env a (preProcessed a (received env a s) p) := by
  obtain ⟨_, _, _, _, hreplied⟩ := asked_replied env a s
  obtain ⟨_, _, _, _, hreceived⟩ := asked_received env a s
  have hresolved := asked_resolved env a s
  have hresolvedFiles : ∀ filename, (resolved env a s).dev.files filename = s.dev.files filename :=
    fun _ => rfl
  have hrepliedUnmixed := h.unmixed.asked hreplied unapplied_exchange
  cases hpass with
  | noBuffers | noHashParam =>
      exact .inl (h.of_files (h.unmixed.asked hresolved fun _ he => absurd he List.not_mem_nil)
        hresolved.sameFirmware.firmwareVersion fun filename => .inl (hresolvedFiles filename))
  | notFound =>
      refine .inl (h.of_files (h.unmixed.asked (hreplied.onDev rfl) unapplied_exchange)
        hreplied.sameFirmware.firmwareVersion fun filename => ?_)
      have hfiles := cleanAllFile_files_or (replied env a s).dev filename
      rwa [files_replied] at hfiles
  | notModified | failed =>
      exact .inl (h.of_files hrepliedUnmixed hreplied.sameFirmware.firmwareVersion
        fun filename => .inl (congrFun (files_replied env a s) filename))
  | crashed =>
      exact .inl (h.of_files (h.unmixed.received env a) hreceived.sameFirmware.firmwareVersion
        (received_files_or env a s))
  | redirected p _ hpre => exact .inl (h.preProcessed hpre)
  | resent p _ hpre =>
      have hnext := h.preProcessed hpre
      obtain ⟨hmap, hflag, hevents⟩ := hnext.unmixed
      exact .inl (hnext.of_files ⟨hmap, hflag, hevents⟩ rfl fun _ => .inl rfl)
  | applied p _ hpre => exact .inr ⟨p, h.preProcessed hpre, rfl⟩

end Untold

/-- What is stored after an apply step is in the RFC store. -/
theorem storeOutcome_files (env : Env) (header : Str) (rc : ReturnCode) (st : St) :
    (storeOutcome env header rc st).dev.files = st.dev.files := by
  have hhash : (updateHashAndTimeInDB env header st).dev.files = st.dev.files := by
    simp only [updateHashAndTimeInDB, updateTimeInDB]
    split
    · simp only [updateHashInDB, St.set_files, St.onProc_dev]
    · exact St.set_files ..
  cases rc with
  | success =>
      simp only [storeOutcome, storeXconfEndpointMetadata, St.log_dev, St.set_files]
      exact hhash
  | failure | noRfcUpdateRequired => exact files_storeOutcome env header st

theorem writeFeature_untracked {filename : Str} (h : ¬ Tracked filename) (rfcList : Str) (dev : Device)
    (feature : Json) : (writeFeature rfcList dev feature).2.files filename = dev.files filename := by
  have hvar : filename ≠ varFile := fun heq => h (.inr (.inl heq))
  have hmarker : ∀ name, filename ≠ featureFile name := by
    rintro name rfl
    exact h (.inl (featureFile_marker name))
  unfold writeFeature
  split
  · rfl
  · split
    · exact Device.append_files_of_ne hvar _
    · exact (Device.append_files_of_ne hvar _).trans (Device.append_files_of_ne (hmarker _) _)

theorem writeFeatures_untracked {filename : Str} (h : ¬ Tracked filename) (features : List Json)
    (rfcList : Str) (dev : Device) :
    (writeFeatures features rfcList dev).2.files filename = dev.files filename := by
  induction features generalizing rfcList dev with
  | nil => rfl
  | cons feature features ih => rw [writeFeatures, ih, writeFeature_untracked h]

theorem Grows.applications {P : Event → Prop} {s t : St} (h : Grows P s t)
    (hP : ∀ body dev, ¬ P (.applied body dev)) :
    applications t.events = applications s.events := by
  obtain ⟨es, hes, hall⟩ := h
  rw [hes, applications_append, applications_eq_nil fun body dev hmem => hP body dev (hall _ hmem),
    List.append_nil]

/-- How the files stand when a run is over. A run that crashes leaves open what it did to the files
that replies erase. -/
inductive Told (firmware : Str) (dev : Device) (returned : Prop) (st : St) : Prop where
  | untold (hnone : applications st.events = [])
      (howned : ∀ filename, Owned filename → st.dev.files filename = dev.files filename)
      (htracked : returned → ∀ filename, Tracked filename →
        st.dev.files filename = none ∨ st.dev.files filename = dev.files filename)
  | told (body : Body) (dev' : Device) (happlied : applications st.events = [(body, dev')])
      (hsame : st.dev.files = dev'.files)
      (hversion : dev'.files versionFile = some (firmware ++ "\n".toList))

theorem Untold.told {firmware : Str} {dev : Device} {st : St} (h : Untold firmware dev st)
    (returned : Prop) : Told firmware dev returned st :=
  .untold (applications_of_unapplied h.unmixed.events) (fun filename hown => h.owned filename hown.1)
    fun _ => h.tracked

/-- What is stored behind an apply step is no application of its own. -/
theorem storeOutcome_applications (env : Env) (header : Str) (rc : ReturnCode) (st : St) :
    applications (storeOutcome env header rc st).events = applications st.events := by
  refine (applyFrame_storeOutcome (P := fun e => ∃ selector url, e = .stored selector url)
    env header rc st fun _ _ => ⟨_, _, rfl⟩).events.applications ?_
  rintro body dev ⟨selector, url, ⟨⟩⟩

/-- Up to its end the apply step has applied nothing. -/
theorem applications_of_part {map : ConfigMap} {body : Body} {st t : St}
    (hnone : applications st.events = [])
    (hgrows : Grows (Event.OfPart map body) (st.log (.apply body)) t) : applications t.events = [] := by
  rw [hgrows.applications fun _ _ => Event.OfPart.not_applied, St.log_events, applications_append,
    hnone]
  rfl

/-- The end of a successful apply step. -/
theorem applications_of_success {map : ConfigMap} {body : Body} {st t : St}
    (hnone : applications st.events = [])
    (hgrows : Grows (Event.OfPart map body) (st.log (.apply body)) t) (env : Env) (header : Str)
    (dev : Device) : applications (storeOutcome env header .success
      ((t.onDev fun _ => dev).log (.applied body dev))).events = [(body, dev)] := by
  rw [storeOutcome_applications, St.log_events, St.onDev_events, applications_append,
    applications_of_part hnone hgrows]
  rfl

/-- The apply step: rejected, crashed, or the files are those of its success. -/
theorem told_applyResponse {firmware : Str} {dev : Device} {st : St} (h : Untold firmware dev st)
    (env : Env) (a : Attempt) :
    Told firmware dev (applyResponse env a st).Returned (applyResponse env a st).state := by
  have hnone := applications_of_unapplied h.unmixed.events
  have hstep := processJsonResponse_step env a.body st
  rw [applyResponse]
  generalize processJsonResponse env a.body st = out at hstep ⊢
  cases hstep with
  | rejected =>
      show Told firmware dev True (storeOutcome env a.header .failure (st.log (.apply a.body)))
      have hnothing : applications (storeOutcome env a.header .failure
          (st.log (.apply a.body))).events = [] :=
        (storeOutcome_applications ..).trans
          (@applications_of_part st.proc.rfcKeyAndValueMap _ _ _ hnone (.refl _))
      have hfiles := storeOutcome_files env a.header .failure (st.log (.apply a.body))
      generalize storeOutcome env a.header .failure (st.log (.apply a.body)) = t at hnothing hfiles ⊢
      refine .untold hnothing (fun filename hown => ?_) fun _ filename htracked => ?_
      · rw [hfiles]
        exact h.owned filename hown.1
      · rw [hfiles]
        exact h.tracked filename htracked
  | @crashed features _ hfeatures hcrash =>
      have hgrows := (applyFrame_featuresWritten env hfeatures st).events
      rw [hcrash] at hgrows
      refine .untold (applications_of_part hnone hgrows) (fun filename hown => ?_) fun hreturned =>
        hreturned.elim
      have hlist : filename ≠ tr181FileList := fun heq => hown.1 (.inr (.inr heq))
      have hfiles := configDataPart_files env features (featuresWritten features a.body st) hown.2
        hlist
      rw [hcrash] at hfiles
      exact (hfiles.trans (writeFeatures_untracked hown.1 ..)).trans (h.owned filename hown.1)
  | @applied features t hfeatures hdone =>
      have hframe := applyFrame_featuresWritten env hfeatures st
      rw [hdone] at hframe
      obtain ⟨_, _, _, _, _, _, hproc⟩ := hframe.proc
      have hfirmware : t.proc.firmwareVersion = firmware :=
        (congrArg Processor.firmwareVersion hproc).trans h.firmwareVersion
      rw [Exec.bind_ok, Exec.state_ok]
      refine .told a.body (featuresListed features st.dev t)
        (applications_of_success hnone hframe.events ..) (storeOutcome_files ..) ?_
      · simp only [featuresListed, hfirmware, writeFile, Device.overwrite, Function.update_self]

/-- **The files over one run.** -/
theorem run_told (env : Env) (attempts : Nat → Attempt) {st : St} (hfresh : Fresh st) :
    Told st.proc.firmwareVersion st.dev (processRuntimeFeatureControlReq env attempts st).Returned
      (processRuntimeFeatureControlReq env attempts st).state := by
  have hend : ∀ i s out, Untold st.proc.firmwareVersion st.dev s → Pass env (attempts i) s out →
      Told st.proc.firmwareVersion st.dev out.Returned out.state := by
    intro i s out h hpass
    obtain hround | ⟨p, hbefore, rfl⟩ := untold_pass h hpass
    · exact hround.told _
    · exact told_applyResponse hbefore env (attempts i)
  refine run_rule (P := fun _ s => Untold st.proc.firmwareVersion st.dev s)
    (Q := fun out => Told st.proc.firmwareVersion st.dev out.Returned out.state)
    ⟨hfresh.unmixed, rfl, fun _ _ => rfl, fun _ _ => .inr rfl⟩ (fun _ _ h => h.unmixed.flag) ?_
    (fun h _ => h.told _) (fun _ h => h.told _) (fun i s _ _ _ h hpass => hend i s _ h hpass)
    (fun i s _ _ h hpass => hend i s _ h hpass)
  intro i s t _ h hpass
  obtain hround | ⟨p, -, hout⟩ := untold_pass h hpass
  · exact hround
  · exact absurd hout applyResponse_ne_none

/-! ### One start of the manager -/

/-- A start: the platform it finds and what its run meets. -/
structure Boot where
  platform : Platform
  env : Env
  attempts : Nat → Attempt

namespace Boot

variable (b : Boot) (dev : Device)

def start : ReturnCode × St :=
  initializeRuntimeFeatureControlProcessor b.platform b.env ⟨.constructed, dev, []⟩

/-- The environment of the requests, once the debug services have been looked at. -/
def requestEnv (st : St) : Env :=
  b.platform.env b.env (isSecureDbgSrvUnlocked b.platform b.env st).1

/-- `ProcessRuntimeFeatureControlReq` from its start. -/
def request (st : St) : Exec St ReturnCode :=
  processRuntimeFeatureControlReq (b.requestEnv st) b.attempts
    (isSecureDbgSrvUnlocked b.platform b.env st).2

/-- Without a server URL nothing is asked. -/
def run : Exec St ReturnCode :=
  match b.start dev with
  | (.success, st) => b.request st
  | (rc, st) => .ok rc st

end Boot

/-- Looking at the debug services keeps what the start has set up. -/
theorem Started.unlocked {pl : Platform} {dev : Device} {st : St} (h : Started pl dev st) (env : Env) :
    Started pl dev (isSecureDbgSrvUnlocked pl env st).2 := by
  obtain ⟨hframe, hproc⟩ := startFrame_isSecureDbgSrvUnlocked pl env st
  generalize (isSecureDbgSrvUnlocked pl env st).2 = t at hframe hproc
  obtain ⟨p, dev', es⟩ := t
  obtain rfl : p = st.proc := hproc
  exact { h with
    files := hframe.files.trans h.files
    rfcStore := hframe.rfcStore.trans h.rfcStore
    sets := hframe.sets.trans h.sets
    events := hframe.events.trans h.events }

theorem Started.fresh {pl : Platform} {dev : Device} {st : St} (h : Started pl dev st) : Fresh st :=
  ⟨h.map, h.flag, h.events⟩

/-- A start that asks does so from a processor set up for it. -/
inductive Boot.Goes (b : Boot) (dev : Device) : Exec St ReturnCode → Prop where
  | idle (rc : ReturnCode) (st : St) (hfailed : rc ≠ .success)
      (hframe : StartFrame ⟨.constructed, dev, []⟩ st) :
      Goes b dev (.ok rc st)
  | asks (isDebugServicesUnlocked : Bool) (st : St) (hstarted : Started b.platform dev st) :
      Goes b dev (processRuntimeFeatureControlReq (b.platform.env b.env isDebugServicesUnlocked)
        b.attempts st)

theorem Boot.run_goes (b : Boot) (dev : Device) : b.Goes dev (b.run dev) := by
  have hframe := initialize_frame b.platform b.env dev
  unfold Boot.run
  split
  next st hstart => exact .asks _ _ ((initialize_started hstart).unlocked b.env)
  next rc st hfailed hstart =>
    rw [show initializeRuntimeFeatureControlProcessor b.platform b.env ⟨.constructed, dev, []⟩ =
      (rc, st) from hstart] at hframe
    exact .idle rc st hfailed hframe

theorem Boot.run_told (b : Boot) (dev : Device) :
    Told b.platform.firmwareVersion dev (b.run dev).Returned (b.run dev).state := by
  have hgoes := b.run_goes dev
  generalize b.run dev = out at hgoes ⊢
  cases hgoes with
  | idle rc st _ hframe =>
      refine .untold ?_ (fun filename _ => congrFun hframe.files filename)
        fun _ filename _ => .inr (congrFun hframe.files filename)
      rw [Exec.state_ok, hframe.events]
      rfl
  | asks unlocked st hstarted =>
      have htold := RfcMgr.run_told (b.platform.env b.env unlocked) b.attempts hstarted.fresh
      rw [hstarted.firmwareVersion] at htold
      cases htold with
      | untold hnone howned htracked =>
          rw [hstarted.files] at howned htracked
          exact .untold hnone howned htracked
      | told body dev' happlied hsame hversion => exact .told body dev' happlied hsame hversion

/-- What a start applies is one of its responses, written out in full. -/
theorem Boot.run_appliedOf (b : Boot) (dev : Device) :
    AppliedOf (fun body => ∃ i, body = (b.attempts i).body) (b.run dev).state.events := by
  have hgoes := b.run_goes dev
  generalize b.run dev = out at hgoes ⊢
  cases hgoes with
  | idle rc st _ hframe =>
      intro body dev' hmem
      rw [Exec.state_ok, hframe.events] at hmem
      cases hmem
  | asks unlocked st hstarted => exact RfcMgr.run_appliedOf _ b.attempts hstarted.fresh

/-! ### Many starts -/

namespace Lifetime

/-- The device after some starts. -/
def after : List Boot → Device → Device
  | [], dev => dev
  | b :: bs, dev => after bs (b.run dev).state.dev

/-- The responses that some starts apply, each with its start. -/
def applied : List Boot → Device → List (Boot × Body × Device)
  | [], _ => []
  | b :: bs, dev =>
      (applications (b.run dev).state.events).map (fun application => (b, application)) ++
        applied bs (b.run dev).state.dev

/-- None of the starts crashes. -/
def Returns : List Boot → Device → Prop
  | [], _ => True
  | b :: bs, dev => (b.run dev).Returned ∧ Returns bs (b.run dev).state.dev

theorem after_snoc (bs : List Boot) (b : Boot) (dev : Device) :
    after (bs ++ [b]) dev = (b.run (after bs dev)).state.dev := by
  induction bs generalizing dev with
  | nil => rfl
  | cons b' bs ih => exact ih _

theorem returns_snoc (bs : List Boot) (b : Boot) (dev : Device) :
    Returns (bs ++ [b]) dev ↔ Returns bs dev ∧ (b.run (after bs dev)).Returned := by
  induction bs generalizing dev with
  | nil => simp only [List.nil_append, Returns, after, and_true, true_and]
  | cons b' bs ih => rw [List.cons_append, Returns, Returns, ih, and_assoc, after]

/-- The device that the last applied response left, or the first one. -/
def lastApplied (bs : List Boot) (dev : Device) : Device :=
  match (applied bs dev).getLast? with
  | none => dev
  | some (_, _, dev') => dev'

/-- A response that is applied was sent in its start, and is written out with the firmware of it. -/
theorem applied_written {bs : List Boot} {dev dev' : Device} {b : Boot} {body : Body}
    (hmem : (b, body, dev') ∈ applied bs dev) :
    b ∈ bs ∧ (∃ i, body = (b.attempts i).body) ∧
      dev'.files versionFile = some (b.platform.firmwareVersion ++ "\n".toList) ∧
      ∃ features, body.features = some features ∧ Written features dev' := by
  induction bs generalizing dev with
  | nil => exact absurd hmem List.not_mem_nil
  | cons b' bs ih =>
      rw [applied] at hmem
      rcases List.mem_append.mp hmem with hmem | hmem
      · obtain ⟨⟨body', dev''⟩, happlied, heq⟩ := List.mem_map.mp hmem
        obtain ⟨rfl, rfl, rfl⟩ : b' = b ∧ body' = body ∧ dev'' = dev' := by simpa using heq
        obtain ⟨hsent, hfeatures⟩ := b'.run_appliedOf dev _ _ (mem_applications.mp happlied)
        refine ⟨List.mem_cons_self, hsent, ?_, hfeatures⟩
        cases b'.run_told dev with
        | untold hnone =>
            rw [hnone] at happlied
            cases happlied
        | told _ _ honly _ hversion =>
            rw [honly, List.mem_singleton] at happlied
            obtain ⟨-, rfl⟩ := Prod.mk.inj happlied
            exact hversion
      · obtain ⟨hb, hrest⟩ := ih hmem
        exact ⟨List.mem_cons_of_mem _ hb, hrest⟩

/-- The last of several applied responses is that of the later starts, if they apply any. -/
theorem lastApplied_cons (b : Boot) (bs : List Boot) (dev : Device) :
    lastApplied (b :: bs) dev =
      match (applied bs (b.run dev).state.dev).getLast? with
      | some (_, _, dev') => dev'
      | none =>
        match (applications (b.run dev).state.events).getLast? with
        | some (_, dev') => dev'
        | none => dev := by
  rw [lastApplied, applied, List.getLast?_append, List.getLast?_map]
  cases (applied bs (b.run dev).state.dev).getLast? with
  | some last => rfl
  | none =>
      cases (applications (b.run dev).state.events).getLast? with
      | some last => rfl
      | none => rfl

/-- **The files after any starts**: those no reply erases are as the last applied response left them;
of the others, some may be gone. -/
theorem files_after (bs : List Boot) (dev : Device) :
    (∀ filename, Owned filename →
      (after bs dev).files filename = (lastApplied bs dev).files filename) ∧
    (Returns bs dev → ∀ filename, Tracked filename → (after bs dev).files filename = none ∨
      (after bs dev).files filename = (lastApplied bs dev).files filename) := by
  induction bs generalizing dev with
  | nil => exact ⟨fun _ _ => rfl, fun _ _ _ => .inr rfl⟩
  | cons b bs ih =>
      obtain ⟨howned, htracked⟩ := ih (b.run dev).state.dev
      have htold := b.run_told dev
      rw [lastApplied_cons]
      rw [lastApplied] at howned htracked
      simp only [after, Returns]
      cases hlater : (applied bs (b.run dev).state.dev).getLast? with
      | some last =>
          simp only [hlater] at howned htracked
          exact ⟨howned, fun hreturns => htracked hreturns.2⟩
      | none =>
          simp only [hlater] at howned htracked
          cases htold with
          | untold hnone hfirst hfirstTracked =>
              rw [hnone]
              refine ⟨fun filename hown => (howned filename hown).trans (hfirst filename hown), ?_⟩
              intro hreturns filename hfile
              obtain hgone | hsame := htracked hreturns.2 filename hfile
              · exact .inl hgone
              · exact (hfirstTracked hreturns.1 filename hfile).imp hsame.trans hsame.trans
          | told body dev' happlied hsame =>
              rw [happlied]
              rw [hsame] at howned htracked
              exact ⟨howned, fun hreturns => htracked hreturns.2⟩

end Lifetime

/-! ### The requests of a run -/

theorem replied_events (env : Env) (a : Attempt) (st : St) :
    (replied env a st).events = st.events ++
      [.request (resolved env a st).proc.xconfServerUrl
        ((createXconfHTTPUrl env (resolved env a st).proc).take 1023)
        (getStoredHashAndTime env (resolved env a st)).1.1
        (getStoredHashAndTime env (resolved env a st)).1.2,
        .response a.curlRetCode a.httpCode] := by
  have h := readsOnly_getStoredHashAndTime env (resolved env a st)
  obtain ⟨bkupHash, hproc⟩ := h.proc
  have hevents : (resolved env a st).events = st.events := rfl
  simp only [replied, exchanged, St.log, h.events, hproc, hevents, List.append_assoc, List.cons_append,
    List.nil_append]

/-- A pass sends at most one request, with the hash and the time it finds stored at its head. -/
theorem pass_requests {env : Env} {a : Attempt} {s : St} {out : Exec St (Option ReturnCode)}
    (hpass : Pass env a s out) {url requestUrl hash time : Str}
    (hmem : .request url requestUrl hash time ∈ out.state.events) :
    .request url requestUrl hash time ∈ s.events ∨
      (hash, time) = (getStoredHashAndTime env (resolved env a s)).1 := by
  have hreplied : .request url requestUrl hash time ∈ (replied env a s).events →
      .request url requestUrl hash time ∈ s.events ∨
        (hash, time) = (getStoredHashAndTime env (resolved env a s)).1 := by
    intro hmem
    rw [replied_events] at hmem
    simpa [Prod.ext_iff] using (List.mem_append.mp hmem).imp id fun h => by
      simp only [List.mem_cons, Event.request.injEq, reduceCtorEq, List.not_mem_nil, or_false] at h
      exact ⟨h.2.2.1, h.2.2.2⟩
  have hpreProcessed : ∀ p, .request url requestUrl hash time ∈
      (preProcessed a (received env a s) p).events →
        .request url requestUrl hash time ∈ (replied env a s).events := by
    intro p hmem
    simpa [preProcessed, received] using hmem
  cases hpass with
  | noBuffers | noHashParam => exact .inl hmem
  | notFound | notModified | failed | crashed => exact hreplied hmem
  | redirected p => exact hreplied (hpreProcessed p hmem)
  | resent p => exact hreplied (hpreProcessed p hmem)
  | applied p =>
      have hframe := applyFrame_applyResponse env a (preProcessed a (received env a s) p)
      have hlogged := hframe.events.mem_of_not
        (fun h => Bool.noConfusion (Event.OfApply.quiet h).1) hmem
      exact hreplied (hpreProcessed p (by simpa using hlogged))

/-- **The rule for the requests of a run**: an invariant of the passes that go round again, and what it
says of the hash and the time that are found stored. -/
theorem run_requests_rule {env : Env} {attempts : Nat → Attempt} {st : St} {I : St → Prop}
    {R : Str → Str → Prop} (hevents : st.events = []) (hinit : I (st.onProc chooseSelectOpt))
    (hflag : ∀ s, I s → s.proc.urlValidationInProgress = false)
    (hround : ∀ i s t, I s → Pass env (attempts i) s (.ok none t) → I t)
    (hstored : ∀ i s, I s → R (getStoredHashAndTime env (resolved env (attempts i) s)).1.1
      (getStoredHashAndTime env (resolved env (attempts i) s)).1.2) :
    ∀ url requestUrl hash time, .request url requestUrl hash time ∈
      (processRuntimeFeatureControlReq env attempts st).state.events → R hash time := by
  have hlast : ∀ i s out, I s → Pass env (attempts i) s out →
      (∀ url requestUrl hash time, .request url requestUrl hash time ∈ s.events → R hash time) →
      ∀ url requestUrl hash time, .request url requestUrl hash time ∈ out.state.events →
        R hash time := by
    intro i s out hs hpass hearlier url requestUrl hash time hmem
    obtain hold | hnew := pass_requests hpass hmem
    · exact hearlier _ _ _ _ hold
    · have hR := hstored i s hs
      rw [← hnew] at hR
      exact hR
  refine run_state_rule (P := fun _ s => I s ∧ ∀ url requestUrl hash time,
    .request url requestUrl hash time ∈ s.events → R hash time) ⟨hinit, ?_⟩ (fun _ s h => hflag s h.1)
    (fun i s t _ h hpass => ⟨hround i s t h.1 hpass, hlast i s _ h.1 hpass h.2⟩) (fun _ _ _ h => h.2)
    (fun i s _ _ h hpass => hlast i s _ h.1 hpass h.2)
  intro url requestUrl hash time hmem
  rw [St.onProc_events, hevents] at hmem
  cases hmem

/-! ### What later starts find -/

theorem firstLine_some (text : Str) : firstLine (some text) = text.takeWhile (· != '\n') := by
  have hfile : fileLines text = KeyValueLines.getLines text := rfl
  rw [firstLine, Option.bind_some, hfile]
  by_cases hbreak : '\n' ∈ text
  · obtain ⟨line, rest, rfl, hline⟩ := List.eq_append_cons_of_mem hbreak
    rw [KeyValueLines.getLines_cons hline, KeyValueLines.takeWhile_append_stop hline]
    rfl
  · rw [KeyValueLines.takeWhile_of_not_mem hbreak, KeyValueLines.getLines,
      List.splitOn_eq_singleton hbreak]
    cases text with
    | nil => rfl
    | cons c text => rfl

/-- What `NotifyTelemetry2RemoteFeatures` reports: the first line of the feature list. -/
def notifyTelemetry2RemoteFeatures (dev : Device) : Option Str :=
  let line := firstLine (dev.files featureFileList)
  if line = [] then none else some line

namespace Lifetime

variable {bs : List Boot} {dev : Device} {b : Boot}

/-- **The files mirror the last applied response**, whatever later starts met: a file of it that is
still there holds what it said, and what is reported as active is its list. -/
theorem mirrored_after (hreturns : Returns bs dev) {body : Body} {dev' : Device}
    (hlast : (applied bs dev).getLast? = some (b, body, dev')) :
    ∃ features, body.features = some features ∧
      (after bs dev).files versionFile = some (b.platform.firmwareVersion ++ "\n".toList) ∧
      (after bs dev).files featureFileList =
        some ((accepted features).flatMap listEntry ++ "\n".toList) ∧
      notifyTelemetry2RemoteFeatures (after bs dev) = notifyTelemetry2RemoteFeatures dev' ∧
      (∀ text, (after bs dev).files varFile = some text →
        text = (accepted features).flatMap exportLines) ∧
      ∀ name text, (after bs dev).files (featureFile name) = some text →
        text = ((accepted features).filter (marks name)).flatMap exportLines := by
  obtain ⟨howned, htracked⟩ := files_after bs dev
  obtain ⟨-, -, hversion, features, hfeatures, hwritten⟩ :=
    applied_written (List.mem_of_getLast? hlast)
  have hdev : lastApplied bs dev = dev' := by rw [lastApplied, hlast]
  rw [hdev] at howned htracked
  have hlist := howned featureFileList (by decide)
  have hlines : ∀ filename objs, Tracked filename → dev'.files filename = appendLines none objs →
      ∀ text, (after bs dev).files filename = some text → text = objs.flatMap exportLines := by
    intro filename objs hfile hobjs text htext
    obtain hgone | hsame := htracked hreturns filename hfile
    · rw [hgone] at htext
      cases htext
    · rw [htext, hobjs, appendLines] at hsame
      split at hsame
      · cases hsame
      · exact Option.some.inj hsame
  refine ⟨features, hfeatures, (howned versionFile (by decide)).trans hversion, ?_, ?_, ?_, ?_⟩
  · obtain ⟨start, -, -, hfiles⟩ := hwritten.files
    rw [hlist, hfiles, writeFeatures_list, List.nil_append]
  · simp only [notifyTelemetry2RemoteFeatures, hlist]
  · exact hlines varFile _ (.inr (.inl rfl)) hwritten.variableFile
  · intro name text htext
    have hmarker := hwritten.marker name
    have hfile : Tracked (featureFile name) := .inl (featureFile_marker name)
    split at hmarker
    · obtain hgone | hsame := htracked hreturns _ hfile
      · rw [hgone] at htext
        cases htext
      · rw [htext, hmarker] at hsame
        cases hsame
    · exact hlines _ _ hfile hmarker text htext

/-- A start that applies a response without features. -/
def plainBoot : Boot := ⟨.plain, .plain, fun _ => .answered 200 (responseBody [])⟩

/-- A start whose server does not answer. -/
def silentBoot : Boot := ⟨.plain, .plain, fun _ => .answered 500 none⟩

theorem mirrored_after_silent :
    (after [plainBoot, silentBoot] .blank).files versionFile = some "V1\n".toList := by
  have hreturns : Returns [plainBoot, silentBoot] .blank :=
    ⟨Exec.returned_of_isSome (by decide +kernel), Exec.returned_of_isSome (by decide +kernel), trivial⟩
  have hsome : (applied [plainBoot, silentBoot] .blank).getLast?.isSome = true := by decide +kernel
  obtain ⟨⟨b, body, dev'⟩, hlast⟩ := Option.isSome_iff_exists.mp hsome
  obtain ⟨features, -, hversion, -⟩ := mirrored_after hreturns hlast
  obtain ⟨hb, -⟩ := applied_written (List.mem_of_getLast? hlast)
  have hfirmware : b.platform.firmwareVersion = "V1".toList := by
    simp only [List.mem_cons, List.not_mem_nil, or_false] at hb
    rcases hb with rfl | rfl
    · rfl
    · rfl
  rw [hversion, hfirmware]
  rfl

/-- The firmware of the start that last applied a response, when one has. -/
theorem lastFirmware_after (hnew : dev.files versionFile = none)
    (hlines : ∀ b ∈ bs, '\n' ∉ b.platform.firmwareVersion) :
    firstLine ((after bs dev).files versionFile) =
      (((applied bs dev).getLast?.map fun last => last.1.platform.firmwareVersion).getD []) := by
  rw [(files_after bs dev).1 versionFile (by decide), lastApplied]
  cases hlast : (applied bs dev).getLast? with
  | none =>
      simp only [hnew]
      rfl
  | some last =>
      obtain ⟨b, body, dev'⟩ := last
      obtain ⟨hb, -, hversion, -⟩ := applied_written (List.mem_of_getLast? hlast)
      simp only [hversion, firstLine_some, Option.map_some, Option.getD_some]
      exact KeyValueLines.takeWhile_append_stop (hlines b hb) []

/-- **Which start makes a first request**: the one on a device that has applied nothing yet, or whose
last applied response came with another firmware. -/
theorem isFirstRequest_iff (hnew : dev.files versionFile = none)
    (hlines : ∀ b ∈ bs, '\n' ∉ b.platform.firmwareVersion) {st : St}
    (hstart : b.start (after bs dev) = (.success, st)) :
    st.proc.isFirstRequest = true ↔
      ∀ b' body dev', (applied bs dev).getLast? = some (b', body, dev') →
        b'.platform.firmwareVersion = [] ∨ b.platform.firmwareVersion ≠ [] ∧
          b'.platform.firmwareVersion ≠ b.platform.firmwareVersion := by
  have hstarted := initialize_started hstart
  rw [hstarted.isFirstRequest, isNewFirmwareFirstRequest, decide_eq_true_iff, hstarted.lastFirmware,
    hstarted.firmwareVersion, lastFirmware_after hnew hlines]
  cases (applied bs dev).getLast? with
  | none => simp
  | some last =>
      obtain ⟨b', body, dev'⟩ := last
      simp

/-- The same device with another firmware. -/
def upgradedBoot : Boot :=
  ⟨{ Platform.plain with firmwareVersion := "V2".toList }, .plain, fun _ => .answered 500 none⟩

theorem plainBoot_lines : ∀ b ∈ [plainBoot], '\n' ∉ b.platform.firmwareVersion := by
  intro b hb
  obtain rfl := List.mem_singleton.mp hb
  decide

theorem upgradedBoot_upgrade : ∀ b' body dev',
    (applied [plainBoot] .blank).getLast? = some (b', body, dev') →
      b'.platform.firmwareVersion ≠ upgradedBoot.platform.firmwareVersion := by
  intro b' body dev' hlast
  obtain ⟨hb, -⟩ := applied_written (List.mem_of_getLast? hlast)
  obtain rfl := List.mem_singleton.mp hb
  decide

theorem isFirstRequest_iff_upgraded :
    (upgradedBoot.start (after [plainBoot] .blank)).2.proc.isFirstRequest = true := by
  have hstart : (upgradedBoot.start (after [plainBoot] .blank)).1 = .success := by decide +kernel
  refine (isFirstRequest_iff rfl plainBoot_lines (Prod.ext hstart rfl)).mpr ?_
  exact fun b' body dev' hlast => .inr ⟨by decide, upgradedBoot_upgrade b' body dev' hlast⟩

end Lifetime

/-- A hash that no configuration has: the server has to send everything. -/
def asksForAll (hash time : Str) : Prop :=
  (hash = "UPGRADE_HASH".toList ∨ hash = "OVERRIDE_HASH".toList) ∧ time = "0".toList

theorem getStoredHashAndTime_upgrade (env : Env) {st : St}
    (hne : st.proc.lastFirmware ≠ st.proc.firmwareVersion) :
    asksForAll (getStoredHashAndTime env st).1.1 (getStoredHashAndTime env st).1.2 := by
  have hstored : storedHashAndTime env st = (("UPGRADE_HASH".toList, "0".toList), st) := by
    rw [storedHashAndTime, if_neg hne]
  simp only [getStoredHashAndTime, hstored]
  split
  · exact ⟨.inr rfl, rfl⟩
  · exact ⟨.inl rfl, rfl⟩

/-- **No stored hash is sent on a new firmware**: until a response has been applied under it, every
request of every start asks for the whole configuration. -/
theorem Lifetime.requests_after_upgrade {bs : List Boot} {dev : Device} {b : Boot}
    (hnew : dev.files versionFile = none) (hlines : ∀ b ∈ bs, '\n' ∉ b.platform.firmwareVersion)
    (hfirmware : b.platform.firmwareVersion ≠ [])
    (hupgrade : ∀ b' body dev', (applied bs dev).getLast? = some (b', body, dev') →
      b'.platform.firmwareVersion ≠ b.platform.firmwareVersion) :
    ∀ url requestUrl hash time, .request url requestUrl hash time ∈
      (b.run (after bs dev)).state.events → asksForAll hash time := by
  have hgoes := b.run_goes (after bs dev)
  generalize b.run (after bs dev) = out at hgoes ⊢
  cases hgoes with
  | idle rc st _ hframe =>
      intro url requestUrl hash time hmem
      rw [Exec.state_ok, hframe.events] at hmem
      cases hmem
  | asks unlocked st hstarted =>
      have hne : st.proc.lastFirmware ≠ st.proc.firmwareVersion := by
        rw [hstarted.lastFirmware, hstarted.firmwareVersion, lastFirmware_after hnew hlines]
        cases hlast : (applied bs dev).getLast? with
        | none => exact hfirmware.symm
        | some last => exact hupgrade _ _ _ hlast
      refine run_requests_rule (I := fun s => Unmixed s ∧
        s.proc.lastFirmware ≠ s.proc.firmwareVersion) hstarted.events
        ⟨hstarted.fresh.unmixed, hne⟩ (fun _ h => h.1.flag) ?_ ?_
      · rintro i s t ⟨hs, hsne⟩ hpass
        obtain ⟨hsame, hlast⟩ := sameFirmware_round hpass
        exact ⟨unmixed_round hs hpass, by rwa [hlast, hsame]⟩
      · rintro i s ⟨-, hsne⟩
        obtain ⟨hsame, hlast⟩ :=
          (asked_resolved (b.platform.env b.env unlocked) (b.attempts i) s).sameFirmware
        exact getStoredHashAndTime_upgrade _ (by rwa [hlast, hsame])

theorem Lifetime.requests_after_upgrade_silent :
    ∃ url requestUrl hash time, .request url requestUrl hash time ∈
      (upgradedBoot.run (after [plainBoot] .blank)).state.events ∧ asksForAll hash time := by
  have hsent : (upgradedBoot.run (after [plainBoot] .blank)).state.events.any Event.isRequest = true := by
    decide +kernel
  obtain ⟨e, hmem, hrequest⟩ := List.any_eq_true.mp hsent
  cases e with
  | request url requestUrl hash time =>
      exact ⟨url, requestUrl, hash, time, hmem, requests_after_upgrade rfl plainBoot_lines (by decide)
        upgradedBoot_upgrade url requestUrl hash time hmem⟩
  | _ => cases hrequest

end RfcMgr
