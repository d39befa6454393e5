import RfcMgr.OwnResponse

/-! The feature files after a successful apply step: `rfcVariable.ini`, the `.RFC_<name>.ini` markers and
`rfcFeature.list` hold what the accepted features of the response say, and nothing else.

The markers and the variable file are appended to, so the result rests on the download having erased
them, and on nothing between it and the end of the apply step writing to them but the loop over the
features. -/

namespace RfcMgr

/-- The features that pass the checks of `ProcessJsonResponse`, in array order. -/
def accepted (features : List Json) : List RuntimeFeatureControlObject :=
  features.filterMap readFeature

/-- The feature is written to the marker of that name. -/
def marks (name : Str) (obj : RuntimeFeatureControlObject) : Bool :=
  obj.featureInstance.isSome && obj.name == name

def listEntry (obj : RuntimeFeatureControlObject) : Str :=
  (obj.featureInstance.map fun featureInstance => featureInstance ++ "=true,".toList).getD []

/-- A file that the lines of the features are appended to, one feature after the other. -/
def appendLines (old : Option Str) (objs : List RuntimeFeatureControlObject) : Option Str :=
  if objs = [] then old else some (old.getD [] ++ objs.flatMap exportLines)

theorem accepted_cons (feature : Json) (features : List Json) :
    accepted (feature :: features) = (readFeature feature).toList ++ accepted features := by
  cases h : readFeature feature with
  | none => simp [accepted, h]
  | some obj => simp [accepted, h]

@[simp] theorem appendLines_nil (old : Option Str) : appendLines old [] = old := rfl

theorem appendLines_append (old : Option Str) (xs ys : List RuntimeFeatureControlObject) :
    appendLines old (xs ++ ys) = appendLines (appendLines old xs) ys := by
  by_cases hx : xs = []
  · rw [hx, List.nil_append, appendLines_nil]
  · by_cases hy : ys = []
    · rw [hy, List.append_nil, appendLines_nil]
    · simp [appendLines, hx, hy]

theorem appendLines_isSome {objs : List RuntimeFeatureControlObject} :
    (appendLines none objs).isSome ↔ objs ≠ [] := by
  unfold appendLines
  split
  next h => simp [h]
  next h => simp [h]

theorem featureFile_injective {name name' : Str} (h : featureFile name = featureFile name') :
    name = name' := by
  have htail : name ++ ".ini".toList = name' ++ ".ini".toList := by
    have hparts : ".RFC_".toList ++ (name ++ ".ini".toList) = ".RFC_".toList ++ (name' ++ ".ini".toList) := by
      rw [← List.append_assoc, ← List.append_assoc]
      exact h
    exact List.append_cancel_left hparts
  exact List.append_cancel_right htail

theorem featureFile_marker (name : Str) : ".RFC_".toList.isPrefixOf (featureFile name) = true := by
  have happend : featureFile name = ".RFC_".toList ++ (name ++ ".ini".toList) :=
    List.append_assoc ..
  rw [happend]
  exact List.isPrefixOf_iff_prefix.mpr (List.prefix_append ..)

/-- A file whose name does not start with `.RFC_` is no marker. -/
theorem featureFile_ne {filename : Str} (h : ".RFC_".toList.isPrefixOf filename = false)
    (name : Str) : featureFile name ≠ filename := by
  rintro rfl
  rw [featureFile_marker] at h
  cases h

/-! ### The loop over the features -/

theorem slash_notMem_featureFile {name : Str} (h : '/' ∉ name) : '/' ∉ featureFile name := by
  simp only [featureFile, List.mem_append, not_or]
  exact ⟨⟨by decide, h⟩, by decide⟩

theorem writeFeature_varFile (rfcList : Str) (dev : Device) (feature : Json) :
    (writeFeature rfcList dev feature).2.files varFile =
      appendLines (dev.files varFile) (readFeature feature).toList := by
  unfold writeFeature
  split
  next h => rw [h, Option.toList_none, appendLines_nil]
  next obj h =>
    have hslash : '/' ∉ varFile := by decide
    have hone : ∀ old, appendLines old [obj] = some (old.getD [] ++ exportLines obj) := by
      intro old
      simp [appendLines]
    rw [h, Option.toList_some, hone]
    split
    · exact Device.append_files_self hslash _
    · have hmarker : featureFile obj.name ≠ varFile := featureFile_ne (by decide) obj.name
      rw [writeRemoteFeatureCntrlFile, Device.append_files_self hslash, writeRemoteFeatureCntrlFile,
        Device.append_files_of_ne hmarker.symm]

theorem writeFeature_marker {name : Str} (hname : '/' ∉ name) (rfcList : Str) (dev : Device)
    (feature : Json) :
    (writeFeature rfcList dev feature).2.files (featureFile name) =
      appendLines (dev.files (featureFile name)) ((readFeature feature).toList.filter (marks name)) := by
  have hvar : featureFile name ≠ varFile := featureFile_ne (by decide) name
  unfold writeFeature
  split
  next h => rw [h, Option.toList_none, List.filter_nil, appendLines_nil]
  next obj h =>
    rw [h, Option.toList_some]
    split
    next hinstance =>
      have hnot : marks name obj = false := by simp [marks, hinstance]
      rw [List.filter_singleton, hnot]
      exact Device.append_files_of_ne hvar _
    next featureInstance hinstance =>
      rw [writeRemoteFeatureCntrlFile, Device.append_files_of_ne hvar, writeRemoteFeatureCntrlFile]
      by_cases hsame : obj.name = name
      · have hyes : marks name obj = true := by simp [marks, hinstance, hsame]
        rw [List.filter_singleton, hyes, hsame,
          Device.append_files_self (slash_notMem_featureFile hname)]
        simp [appendLines]
      · have hnot : marks name obj = false := by simp [marks, hsame]
        rw [List.filter_singleton, hnot]
        exact Device.append_files_of_ne (fun heq => hsame (featureFile_injective heq).symm) _

/-- A path into a directory is never written. -/
theorem writeFeature_slash {filename : Str} (hslash : '/' ∈ filename) (rfcList : Str) (dev : Device)
    (feature : Json) : (writeFeature rfcList dev feature).2.files filename = dev.files filename := by
  have happend : ∀ (dev : Device) other data, (dev.append other data).files filename =
      dev.files filename := by
    intro dev other data
    unfold Device.append
    split
    · rfl
    next hplain =>
      refine Function.update_of_ne ?_ ..
      rintro rfl
      exact hplain hslash
  unfold writeFeature
  split
  · rfl
  · split
    · exact happend dev varFile _
    · exact (happend _ varFile _).trans (happend dev _ _)

theorem writeFeature_list (rfcList : Str) (dev : Device) (feature : Json) :
    (writeFeature rfcList dev feature).1 =
      rfcList ++ (readFeature feature).toList.flatMap listEntry := by
  unfold writeFeature
  split
  next h => simp [h]
  next obj h =>
    split
    next hinstance => simp [h, listEntry, hinstance]
    next featureInstance hinstance => simp [h, listEntry, hinstance]

/-- The variable file takes the lines of every feature, whatever its name. -/
theorem writeFeatures_varFile (features : List Json) (rfcList : Str) (dev : Device) :
    (writeFeatures features rfcList dev).2.files varFile =
      appendLines (dev.files varFile) (accepted features) := by
  induction features generalizing rfcList dev with
  | nil => rfl
  | cons feature features ih =>
      rw [writeFeatures, ih, writeFeature_varFile, ← appendLines_append, accepted_cons]

theorem writeFeatures_list (features : List Json) (rfcList : Str) (dev : Device) :
    (writeFeatures features rfcList dev).1 = rfcList ++ (accepted features).flatMap listEntry := by
  induction features generalizing rfcList dev with
  | nil => exact (List.append_nil _).symm
  | cons feature features ih =>
      rw [writeFeatures, ih, writeFeature_list, List.append_assoc, ← List.flatMap_append,
        accepted_cons]

theorem writeFeatures_marker {name : Str} (hname : '/' ∉ name) (features : List Json) (rfcList : Str)
    (dev : Device) :
    (writeFeatures features rfcList dev).2.files (featureFile name) =
      appendLines (dev.files (featureFile name)) ((accepted features).filter (marks name)) := by
  induction features generalizing rfcList dev with
  | nil => rfl
  | cons feature features ih =>
      rw [writeFeatures, ih, writeFeature_marker hname, ← appendLines_append, ← List.filter_append,
        accepted_cons]

theorem writeFeatures_slash {filename : Str} (hslash : '/' ∈ filename) (features : List Json)
    (rfcList : Str) (dev : Device) :
    (writeFeatures features rfcList dev).2.files filename = dev.files filename := by
  induction features generalizing rfcList dev with
  | nil => rfl
  | cons feature features ih => rw [writeFeatures, ih, writeFeature_slash hslash]

/-! ### The rest of the apply step -/

/-- Behind the loop over the features, only the store file and the parameter list are written. -/
theorem configDataPart_files (env : Env) (features : List Json) (st : St) {filename : Str}
    (hstore : filename ≠ tr181StoreFile) (hlist : filename ≠ tr181FileList) :
    (processXconfResponseConfigDataPart env features st).state.dev.files filename =
      st.dev.files filename := by
  simp only [processXconfResponseConfigDataPart]
  split
  · rfl
  next filled hfilled =>
    split
    · rfl
    · refine Exec.state_bind (P := fun t : St => t.dev.files filename = st.dev.files filename) ?_ ?_
      · have hclear := (clearFrame_clearDB env ((st.log (.fill st.proc st.dev)).onProc
          fun p => { p with rfcKeyAndValueMap := filled })).files
        rw [(loopFrame_applyParams ..).files, hclear]
        exact Function.update_of_ne hstore ..
      · intro vars st' _ hloop
        rw [Exec.state_ok, clearDBEnd_files, St.onDev_dev, updateTR181File,
          Device.append_files_of_ne hlist, hloop]

/-- What the feature files are for a list of accepted features. Without a feature there is no
variable file. -/
structure Mirrors (objs : List RuntimeFeatureControlObject) (files : Str → Option Str) : Prop where
  variableFile : files varFile = if objs = [] then none else some (objs.flatMap exportLines)
  markerExists : ∀ name, (files (featureFile name)).isSome ↔
    ∃ obj ∈ objs, obj.name = name ∧ obj.featureInstance.isSome
  marker : ∀ name text, files (featureFile name) = some text →
    text = (objs.filter (marks name)).flatMap exportLines
  featureList : files featureFileList = some (objs.flatMap listEntry ++ "\n".toList)

/-- The files a new response has erased. -/
def Cleaned (dev : Device) : Prop :=
  dev.files varFile = none ∧ ∀ name, dev.files (featureFile name) = none

theorem cleaned_cleanAllFile (dev : Device) : Cleaned (dev.cleanAllFile.remove tr181FileList) := by
  refine ⟨rfl, fun name => ?_⟩
  have hmarker : featureFile name ≠ tr181FileList := featureFile_ne (by decide) name
  rw [Device.remove_files_of_ne hmarker]
  exact Device.cleanAllFile_files (.inl (featureFile_marker name))

theorem mirrors_of_appendLines {objs : List RuntimeFeatureControlObject} {files : Str → Option Str}
    (hvar : files varFile = appendLines none objs)
    (hmarker : ∀ name, files (featureFile name) = appendLines none (objs.filter (marks name)))
    (hlist : files featureFileList = some (objs.flatMap listEntry ++ "\n".toList)) :
    Mirrors objs files where
  variableFile := hvar
  markerExists name := by
    rw [hmarker, appendLines_isSome, ← List.length_pos_iff, List.length_filter_pos_iff]
    refine exists_congr fun obj => and_congr_right fun _ => ?_
    rw [marks, Bool.and_eq_true, beq_iff_eq, and_comm]
  marker name text h := by
    rw [hmarker, appendLines] at h
    split at h
    · cases h
    · exact (Option.some.inj h).symm
  featureList := hlist

/-- The device a successful apply step leaves: the features written on erased files, then the list and
the version file, and in between nothing but the store file and the parameter list. -/
structure Written (features : List Json) (dev : Device) : Prop where
  device : ∃ start filled firmware, Cleaned start ∧
    (∀ filename, filename ≠ tr181StoreFile → filename ≠ tr181FileList →
      filled.files filename = (writeFeatures features [] start).2.files filename) ∧
    dev = writeFile versionFile firmware
      (writeFile featureFileList (writeFeatures features [] start).1 filled)

/-- The files that are not written last are those the loop over the features leaves. -/
theorem Written.files {features : List Json} {dev : Device} (h : Written features dev) :
    ∃ start, Cleaned start ∧
      (∀ filename, filename ≠ tr181StoreFile → filename ≠ tr181FileList →
        filename ≠ featureFileList → filename ≠ versionFile →
        dev.files filename = (writeFeatures features [] start).2.files filename) ∧
      dev.files featureFileList = some ((writeFeatures features [] start).1 ++ "\n".toList) := by
  obtain ⟨start, filled, firmware, hclean, hfiles, rfl⟩ := h.device
  refine ⟨start, hclean, fun filename hstore hlist hfl hv => ?_, ?_⟩
  · rw [← hfiles filename hstore hlist]
    simp only [writeFile, Device.overwrite, Function.update_of_ne hv, Function.update_of_ne hfl]
  · have hne : featureFileList ≠ versionFile := by decide
    simp only [writeFile, Device.overwrite, Function.update_of_ne hne, Function.update_self]

theorem Written.variableFile {features : List Json} {dev : Device} (h : Written features dev) :
    dev.files varFile = appendLines none (accepted features) := by
  obtain ⟨start, hclean, hfiles, -⟩ := h.files
  rw [hfiles varFile (by decide) (by decide) (by decide) (by decide), writeFeatures_varFile, hclean.1]

/-- A marker holds the lines of the features of its name, unless that name is a path. -/
theorem Written.marker {features : List Json} {dev : Device} (h : Written features dev) (name : Str) :
    dev.files (featureFile name) =
      if '/' ∈ name then none else appendLines none ((accepted features).filter (marks name)) := by
  obtain ⟨start, hclean, hfiles, -⟩ := h.files
  have hne : ∀ filename, ".RFC_".toList.isPrefixOf filename = false → featureFile name ≠ filename :=
    fun filename h => featureFile_ne h name
  rw [hfiles _ (hne _ (by decide)) (hne _ (by decide)) (hne _ (by decide)) (hne _ (by decide))]
  split
  next hslash =>
    have hpath : '/' ∈ featureFile name := by
      simp only [featureFile, List.mem_append]
      exact Or.inl (Or.inr hslash)
    rw [writeFeatures_slash hpath, hclean.2]
  next hplain => rw [writeFeatures_marker hplain, hclean.2]

theorem Written.mirrors {features : List Json} {dev : Device} (h : Written features dev)
    (hnames : ∀ obj ∈ accepted features, '/' ∉ obj.name) : Mirrors (accepted features) dev.files := by
  refine mirrors_of_appendLines h.variableFile (fun name => ?_) ?_
  · rw [h.marker name]
    split
    next hslash =>
      have hnone : (accepted features).filter (marks name) = [] := by
        rw [List.filter_eq_nil_iff]
        intro obj hobj hmarks
        obtain rfl := eq_of_beq ((Bool.and_eq_true _ _).mp hmarks).2
        exact hnames obj hobj hslash
      rw [hnone, appendLines_nil]
    next => rfl
  · obtain ⟨start, -, -, hlist⟩ := h.files
    rw [hlist, writeFeatures_list, List.nil_append]

/-- The apply step of a response, started on erased files, logs success on a device that holds it. -/
theorem written_processJsonResponse {env : Env} {body body' : Body} {dev : Device} {st : St}
    (hclean : Cleaned st.dev)
    (hmem : .applied body' dev ∈ (processJsonResponse env body st).state.events) :
    .applied body' dev ∈ st.events ∨
      body' = body ∧ ∃ features, body.features = some features ∧ Written features dev := by
  have hearlier : ∀ t, Grows (Event.OfPart st.proc.rfcKeyAndValueMap body) (st.log (.apply body)) t →
      .applied body' dev ∈ t.events → .applied body' dev ∈ st.events := by
    intro t hgrows h
    have hlogged := hgrows.mem_of_not Event.OfPart.not_applied h
    simpa using hlogged
  have hstep := processJsonResponse_step env body st
  generalize processJsonResponse env body st = out at hmem hstep
  cases hstep with
  | rejected => exact .inl (hearlier _ (.refl _) hmem)
  | crashed hfeatures hcrash =>
      have hgrows := (applyFrame_featuresWritten env hfeatures st).events
      rw [hcrash] at hgrows
      exact .inl (hearlier _ hgrows hmem)
  | @applied features t hfeatures hdone =>
      have hgrows := (applyFrame_featuresWritten env hfeatures st).events
      have hfiles : ∀ filename, filename ≠ tr181StoreFile → filename ≠ tr181FileList →
          (processXconfResponseConfigDataPart env features
            (featuresWritten features body st)).state.dev.files filename =
              (writeFeatures features [] st.dev).2.files filename :=
        fun filename => configDataPart_files env features (featuresWritten features body st)
      rw [hdone] at hgrows hfiles
      rcases List.mem_append.mp hmem with hmem | hmem
      · exact .inl (hearlier t hgrows hmem)
      · obtain ⟨rfl, rfl⟩ := Event.applied.inj (List.mem_singleton.mp hmem)
        exact .inr ⟨rfl, features, hfeatures,
          ⟨st.dev, t.dev, t.proc.firmwareVersion, hclean, hfiles, rfl⟩⟩

/-! ### The runs of a device -/

/-- The feature names of a response fit into a file name. -/
def PlainNames (body : Body) : Prop :=
  ∀ features, body.features = some features → ∀ obj ∈ accepted features, '/' ∉ obj.name

/-- A success in the trace comes with files that mirror the response. -/
def Mirrored (es : List Event) : Prop :=
  ∀ body dev, .applied body dev ∈ es →
    ∃ features, body.features = some features ∧ Mirrors (accepted features) dev.files

/-- A success in the trace is of one of some bodies and comes with a device that holds it. -/
def AppliedOf (sent : Body → Prop) (es : List Event) : Prop :=
  ∀ body dev, .applied body dev ∈ es →
    sent body ∧ ∃ features, body.features = some features ∧ Written features dev

theorem appliedOf_of_unapplied {sent : Body → Prop} {es : List Event} (h : ∀ e ∈ es, e.Unapplied) :
    AppliedOf sent es :=
  fun _ _ hmem => (h _ hmem).elim

/-- Whatever the pass does, a success it logs is that of its own response. -/
theorem appliedOf_pass {env : Env} {a : Attempt} {s : St} (h : Unmixed s)
    {out : Exec St (Option ReturnCode)} (hpass : Pass env a s out) :
    AppliedOf (· = a.body) out.state.events := by
  obtain hend | ⟨p, hbefore, rfl⟩ := unmixed_pass h hpass
  · exact appliedOf_of_unapplied hend.events
  · intro body dev hmem
    have hclean : Cleaned (preProcessed a (received env a s) p).dev := cleaned_cleanAllFile _
    obtain hearlier | ⟨rfl, hwritten⟩ :=
      written_processJsonResponse hclean (mem_of_mem_applyResponse (by simp) hmem)
    · exact (hbefore.events _ hearlier).elim
    · exact ⟨rfl, hwritten⟩

theorem run_appliedOf (env : Env) (attempts : Nat → Attempt) {st : St} (hfresh : Fresh st) :
    AppliedOf (fun body => ∃ i, body = (attempts i).body)
      (processRuntimeFeatureControlReq env attempts st).state.events :=
  run_state_rule (P := fun _ s => Unmixed s)
    (Q := fun s => AppliedOf (fun body => ∃ i, body = (attempts i).body) s.events) hfresh.unmixed
    (fun _ _ h => h.flag) (fun _ _ _ _ h hpass => unmixed_round h hpass)
    (fun _ _ _ h => appliedOf_of_unapplied h.events)
    (fun i _ _ _ h hpass body dev hmem => (appliedOf_pass h hpass body dev hmem).imp_left fun hbody =>
      ⟨i, hbody⟩)

/-- One run of the manager: what it meets and the processor it starts with. -/
structure Run where
  env : Env
  attempts : Nat → Attempt
  proc : Processor

/-- The traces of runs on one device, one after the other. -/
def syncs : List Run → Device → List Event
  | [], _ => []
  | run :: runs, dev =>
      let st := (processRuntimeFeatureControlReq run.env run.attempts ⟨run.proc, dev, []⟩).state
      st.events ++ syncs runs st.dev

/-- The processor of every run is a new one. -/
theorem syncs_appliedOf (runs : List Run) (dev : Device)
    (hfresh : ∀ run ∈ runs, run.proc.rfcKeyAndValueMap = ∅ ∧ run.proc.urlValidationInProgress = false) :
    AppliedOf (fun body => ∃ run ∈ runs, ∃ i, body = (run.attempts i).body) (syncs runs dev) := by
  induction runs generalizing dev with
  | nil => exact fun _ _ hmem => absurd hmem List.not_mem_nil
  | cons run runs ih =>
      obtain ⟨hmap, hflag⟩ := hfresh run List.mem_cons_self
      have hstart : Fresh ⟨run.proc, dev, []⟩ := ⟨hmap, hflag, rfl⟩
      have hfirst := run_appliedOf run.env run.attempts hstart
      have hrest := ih
        (processRuntimeFeatureControlReq run.env run.attempts ⟨run.proc, dev, []⟩).state.dev
        (fun r hr => hfresh r (List.mem_cons_of_mem _ hr))
      intro body dev' hmem
      rw [syncs] at hmem
      rcases List.mem_append.mp hmem with hmem | hmem
      · exact (hfirst body dev' hmem).imp_left fun ⟨i, hbody⟩ =>
          ⟨run, List.mem_cons_self, i, hbody⟩
      · exact (hrest body dev' hmem).imp_left fun ⟨r, hr, hbody⟩ =>
          ⟨r, List.mem_cons_of_mem _ hr, hbody⟩

/-- **The feature files mirror the last applied response**, on a device with any files, after any
number of runs with any outcomes and bodies. URL validation changes no file. -/
theorem syncs_mirrored (runs : List Run) (dev : Device)
    (hfresh : ∀ run ∈ runs, run.proc.rfcKeyAndValueMap = ∅ ∧ run.proc.urlValidationInProgress = false)
    (hnames : ∀ run ∈ runs, ∀ i, PlainNames (run.attempts i).body) :
    Mirrored (syncs runs dev) ∧
      ∀ env xconfUrl st, (processXconfUrl env xconfUrl st).state.dev.files = st.dev.files := by
  refine ⟨?_, fun env xconfUrl st => (validates_processXconfUrl env xconfUrl st).files⟩
  intro body dev' hmem
  obtain ⟨⟨run, hrun, i, rfl⟩, features, hfeatures, hwritten⟩ :=
    syncs_appliedOf runs dev hfresh body dev' hmem
  exact ⟨features, hfeatures, hwritten.mirrors (hnames run hrun i features hfeatures)⟩

/-- Two runs with the response that names an account. -/
theorem syncs_mirrored_twice :
    Mirrored (syncs [⟨.plain, fun _ => .answered 200 accountResponse, .fresh⟩,
      ⟨.plain, fun _ => .answered 200 accountResponse, .fresh⟩] .blank) := by
  have hnames : PlainNames accountResponse := by
    intro features hfeatures
    obtain rfl := Option.some.inj hfeatures
    decide
  refine (syncs_mirrored _ _ ?_ ?_).1
  · intro run hrun
    simp only [List.mem_cons, List.not_mem_nil, or_false, or_self] at hrun
    subst hrun
    exact ⟨rfl, rfl⟩
  · intro run hrun
    simp only [List.mem_cons, List.not_mem_nil, or_false, or_self] at hrun
    subst hrun
    exact fun _ => hnames

end RfcMgr
