import RfcMgr.VariableFile
import RfcMgr.PersistedFiles

/-! The two readers of the marker files: `isRFCEnabled` of rfcapi.cpp asks whether a marker is there,
`isFeatureEnabled.sh` sources it and looks at the flag. -/

namespace RfcMgr

open KeyValueLines

/-- `stat` of `RFC_FEATURE_DIR` and `.RFC_<feature>.ini`. -/
def isRFCEnabled (dev : Device) (feature : Str) : Bool := (dev.files (featureFile feature)).isSome

/-! ### The scripts -/

/-- The variables of the shell that runs `isFeatureEnabled.sh`. -/
abbrev ShellVars := Str → Option Str

/-- What the scripts meet outside the RFC directory. -/
structure ShellEnv where
  /-- `/lib/rdk/getRFC.sh` is a file. -/
  getRFCPresent : Bool
  /-- `$RFC_WRITE_LOCK` is there at the n-th look. -/
  rfcWriteLock : Nat → Bool
  vars : ShellVars

def wordChar (c : Char) : Bool := c.isAlphanum || c == '_'

/-- A name the shell takes for a variable. -/
def shellName (name : Str) : Bool := name.all wordChar && !(name.head?.all Char.isDigit)

/-- One line of a sourced file. `export` of anything but a valid name prints an error and sets
nothing. -/
def sourceLine (vars : ShellVars) (line : Str) : ShellVars :=
  match (line.dropPrefix? "export ".toList).bind splitEntry with
  | some (name, value) =>
      if shellName name ∧ value.all wordChar then Function.update vars name (some value) else vars
  | none => vars

def source (text : Str) (vars : ShellVars) : ShellVars := (getLines text).foldl sourceLine vars

/-- `getRFC.sh`: the variables it leaves when `result_getRFC` is 1. Three looks at the lock file are
the limit. -/
def getRFC (env : ShellEnv) (dev : Device) (feature : Str) : Option ShellVars :=
  if env.rfcWriteLock 0 && env.rfcWriteLock 1 && env.rfcWriteLock 2 then none
  else (dev.files (featureFile feature)).map fun text => source text env.vars

/-- `isFeatureEnabled`; `retF` is 1. An indirect expansion of an invalid name fails. -/
def isFeatureEnabled (env : ShellEnv) (dev : Device) (feature : Str) : Bool :=
  if env.getRFCPresent then
    match getRFC env dev feature with
    | none => false
    | some vars =>
        let variable1 := enableKey feature
        shellName variable1 && vars variable1 == some "true".toList
  else false

/-- The names the shell passes on as they are and the name buffer holds whole. -/
structure ScriptName (name : Str) : Prop where
  nonempty : name ≠ []
  short : name.length < rfcMaxLen - 1
  chars : ∀ c ∈ name, wordChar c = true ∨ c = '.' ∨ c = '-'

/-- A response contains a feature of that name, with an instance and enabled. -/
def EnabledIn (features : List Json) (name : Str) : Prop :=
  ∃ feature ∈ features, ∃ obj, readFeature feature = some obj ∧ featureName feature = name ∧
    obj.featureInstance.isSome ∧ obj.enable = true

/-- Both readers agree with the response. -/
def TellsTruth (env : ShellEnv) (dev : Device) (features : List Json) (name : Str) : Prop :=
  (isRFCEnabled dev name = true ↔ EnabledIn features name) ∧
    isRFCEnabled dev name = isFeatureEnabled env dev name

/-- The features that write the marker of a name. -/
def markers (features : List Json) (name : Str) : List RuntimeFeatureControlObject :=
  (accepted features).filter (marks name)

/-- The script gets to the marker. -/
def ShellEnv.reads (env : ShellEnv) : Bool :=
  env.getRFCPresent && !(env.rfcWriteLock 0 && env.rfcWriteLock 1 && env.rfcWriteLock 2)

/-- There is no marker, or it is one the script can read and its last enable flag is set. -/
def Reliable (env : ShellEnv) (features : List Json) (name : Str) : Prop :=
  markers features name = [] ∨
    env.reads = true ∧ name.all wordChar = true ∧
      ∃ obj, (markers features name).getLast? = some obj ∧ obj.enable = true

/-- After every success in the trace, for as long as its files are there, both readers agree with the
response exactly when they are reliable. -/
def Truthful (es : List Event) : Prop :=
  ∀ body dev, .applied body dev ∈ es →
    ∃ features, body.features = some features ∧
      ∀ now, SameFiles dev now → ∀ env name, ScriptName name →
        (TellsTruth env now features name ↔ Reliable env features name)

/-! ### Sourcing a marker -/

theorem shellName_enableKey (name : Str) : shellName (enableKey name) = name.all wordChar := by
  have hall : "RFC_ENABLE_".toList.all wordChar = true := by simp [wordChar]
  have hhead : "RFC_ENABLE_".toList.head? = some 'R' := by simp
  unfold shellName enableKey
  rw [List.all_append, hall, Bool.true_and, List.head?_append, hhead]
  simp

theorem shellName_effectiveKey {name : Str} (h : name.all wordChar = true) :
    shellName ("RFC_".toList ++ name ++ "_effectiveImmediate".toList) = true := by
  have hstart : "RFC_".toList.all wordChar = true := by simp [wordChar]
  have hend : "_effectiveImmediate".toList.all wordChar = true := by simp [wordChar]
  have hhead : "RFC_".toList.head? = some 'R' := by simp
  unfold shellName
  rw [List.all_append, List.all_append, hstart, h, hend, List.head?_append, List.head?_append, hhead]
  rfl

theorem flagText_word (flag : Bool) : (flagText flag).all wordChar = true := by
  cases flag <;> simp [flagText, wordChar]

/-- The shell takes an export line whose key it accepts for an assignment. -/
theorem sourceLine_exportLine {entry : Str × Str} (hkey : '=' ∉ entry.1)
    (hname : shellName entry.1 = true) (hvalue : entry.2.all wordChar = true) (vars : ShellVars) :
    sourceLine vars (exportLine entry) = Function.update vars entry.1 (some entry.2) := by
  have hrest : (exportLine entry).dropPrefix? "export ".toList = some (printEntry entry) := by
    rw [List.dropPrefix?_eq_some_iff]
    exact ⟨_, rfl, beq_self_eq_true _⟩
  have hsplit : splitEntry (printEntry entry) = some entry := splitEntry_append hkey entry.2
  rw [sourceLine, hrest, Option.bind_some, hsplit]
  exact if_pos ⟨hname, hvalue⟩

theorem enableKey_ne_effectiveKey (name : Str) :
    enableKey name ≠ "RFC_".toList ++ name ++ "_effectiveImmediate".toList := by
  have henable : "RFC_ENABLE_".toList.length = 11 := by simp
  have hstart : "RFC_".toList.length = 4 := by simp
  have hend : "_effectiveImmediate".toList.length = 19 := by simp
  intro h
  have hlen := congrArg List.length h
  unfold enableKey at hlen
  simp only [List.length_append, henable, hstart, hend] at hlen
  omega

/-- The lines of features of one name set its enable variable to the flag of the last. -/
theorem source_exportEntries {name : Str} (hword : name.all wordChar = true) (hequals : '=' ∉ name)
    {objs : List RuntimeFeatureControlObject} (hnames : ∀ obj ∈ objs, obj.name = name)
    (vars : ShellVars) :
    (((objs.flatMap exportEntries).map exportLine).foldl sourceLine vars) (enableKey name) =
      (objs.getLast?.map fun obj => flagText obj.enable).or (vars (enableKey name)) := by
  induction objs generalizing vars with
  | nil => rfl
  | cons obj objs ih =>
      have hname : obj.name = name := hnames obj List.mem_cons_self
      have hstart : '=' ∉ "RFC_ENABLE_".toList ∧ '=' ∉ "RFC_".toList ∧
          '=' ∉ "_effectiveImmediate".toList := by simp
      have henable : '=' ∉ enableKey name := fun hmem =>
        (List.mem_append.mp hmem).elim hstart.1 hequals
      have heffective : '=' ∉ "RFC_".toList ++ name ++ "_effectiveImmediate".toList := by
        simp only [List.mem_append, not_or]
        exact ⟨⟨hstart.2.1, hequals⟩, hstart.2.2⟩
      have hset : ((exportEntries obj).map exportLine).foldl sourceLine vars (enableKey name) =
          some (flagText obj.enable) := by
        unfold exportEntries
        rw [hname, List.map_cons, List.map_cons, List.map_nil, List.foldl_cons, List.foldl_cons,
          List.foldl_nil,
          sourceLine_exportLine heffective (shellName_effectiveKey hword) (flagText_word _),
          sourceLine_exportLine henable ((shellName_enableKey name).trans hword) (flagText_word _),
          Function.update_of_ne (enableKey_ne_effectiveKey name), Function.update_self]
      rw [List.flatMap_cons, List.map_append, List.foldl_append,
        ih fun other hother => hnames other (List.mem_cons_of_mem _ hother), hset]
      cases objs with
      | nil => rfl
      | cons other objs =>
          obtain ⟨last, hlast⟩ : ∃ last, (other :: objs).getLast? = some last :=
            ⟨_, List.getLast?_eq_some_getLast (List.cons_ne_nil _ _)⟩
          rw [List.getLast?_cons_cons, hlast]
          rfl

/-! ### The readers and the response -/

theorem ScriptName.varName {name : Str} (h : ScriptName name) : VarName name := by
  have hnone : ∀ c, wordChar c = false → c ≠ '.' → c ≠ '-' → c ∉ name := by
    intro c hword hdot hdash hmem
    rcases h.chars c hmem with hchar | hchar | hchar
    · rw [hword] at hchar
      cases hchar
    · exact hdot hchar
    · exact hdash hchar
  exact ⟨hnone _ (by decide) (by decide) (by decide), hnone _ (by decide) (by decide) (by decide),
    hnone _ (by decide) (by decide) (by decide), hnone _ (by decide) (by decide) (by decide)⟩

theorem ScriptName.no_slash {name : Str} (h : ScriptName name) : '/' ∉ name := by
  intro hmem
  rcases h.chars '/' hmem with hchar | hchar | hchar <;> revert hchar <;> decide

/-- A name that is shorter than its buffer is read whole. -/
theorem ScriptName.name_eq_iff {name : Str} (h : ScriptName name) {feature : Json}
    {obj : RuntimeFeatureControlObject} (hread : readFeature feature = some obj) :
    obj.name = name ↔ featureName feature = name := by
  rw [name_of_readFeature hread]
  constructor
  · intro hcut
    have hlen : (featureName feature).length ≤ rfcMaxLen - 1 := by
      have hlength := congrArg List.length hcut
      rw [List.length_take] at hlength
      have hshort := h.short
      omega
    rwa [List.take_of_length_le hlen] at hcut
  · rintro rfl
    exact List.take_of_length_le h.short.le

theorem mem_markers {features : List Json} {name : Str} {obj : RuntimeFeatureControlObject} :
    obj ∈ markers features name ↔
      (∃ feature ∈ features, readFeature feature = some obj) ∧ obj.featureInstance.isSome ∧
        obj.name = name := by
  rw [markers, List.mem_filter, accepted, List.mem_filterMap, marks, Bool.and_eq_true, beq_iff_eq]

theorem enabledIn_iff {features : List Json} {name : Str} (h : ScriptName name) :
    EnabledIn features name ↔ ∃ obj ∈ markers features name, obj.enable = true := by
  constructor
  · rintro ⟨feature, hfeature, obj, hread, hname, hinstance, henable⟩
    exact ⟨obj, mem_markers.mpr ⟨⟨feature, hfeature, hread⟩, hinstance, (h.name_eq_iff hread).mpr hname⟩,
      henable⟩
  · rintro ⟨obj, hobj, henable⟩
    obtain ⟨⟨feature, hfeature, hread⟩, hinstance, hname⟩ := mem_markers.mp hobj
    exact ⟨feature, hfeature, obj, hread, (h.name_eq_iff hread).mp hname, hinstance, henable⟩

/-- The marker as long as the files of the response are there. -/
theorem Written.marker_now {features : List Json} {dev now : Device} (hwritten : Written features dev)
    (hsame : SameFiles dev now) {name : Str} (h : ScriptName name) :
    now.files (featureFile name) = appendLines none (markers features name) := by
  rw [hsame _ (Or.inl (featureFile_marker name)), hwritten.marker, if_neg h.no_slash]
  rfl

theorem isRFCEnabled_iff {features : List Json} {dev now : Device} (hwritten : Written features dev)
    (hsame : SameFiles dev now) {name : Str} (h : ScriptName name) :
    isRFCEnabled now name = true ↔ markers features name ≠ [] := by
  rw [isRFCEnabled, hwritten.marker_now hsame h, appendLines_isSome]

theorem isFeatureEnabled_iff {features : List Json} {dev now : Device}
    (hwritten : Written features dev) (hsame : SameFiles dev now) (env : ShellEnv) {name : Str}
    (h : ScriptName name) :
    isFeatureEnabled env now name = true ↔
      env.reads = true ∧ name.all wordChar = true ∧
        ∃ obj, (markers features name).getLast? = some obj ∧ obj.enable = true := by
  have hmarker := hwritten.marker_now hsame h
  have hnames : ∀ obj ∈ markers features name, obj.name = name := fun obj hobj =>
    (mem_markers.mp hobj).2.2
  have hlines : ∀ entry ∈ (markers features name).flatMap exportEntries, Plain entry :=
    exportEntries_plain_all fun obj hobj => (hnames obj hobj).symm ▸ h.varName
  unfold isFeatureEnabled getRFC ShellEnv.reads
  cases env.getRFCPresent with
  | false => simp
  | true =>
      cases env.rfcWriteLock 0 && env.rfcWriteLock 1 && env.rfcWriteLock 2 with
      | true => simp
      | false =>
          rw [hmarker, appendLines]
          by_cases hnone : markers features name = []
          · simp [hnone]
          · cases hword : name.all wordChar with
            | false => simp [hnone, shellName_enableKey, hword]
            | true =>
                have hvalue : source ((markers features name).flatMap exportLines) env.vars
                    (enableKey name) =
                      ((markers features name).getLast?.map fun obj => flagText obj.enable).or
                        (env.vars (enableKey name)) := by
                  rw [source, getLines_exportLines hlines]
                  exact source_exportEntries hword h.varName.2.2.1 hnames env.vars
                obtain ⟨last, hlast⟩ : ∃ obj, (markers features name).getLast? = some obj :=
                  ⟨_, List.getLast?_eq_some_getLast hnone⟩
                have hflag : flagText last.enable = ['t', 'r', 'u', 'e'] ↔ last.enable = true := by
                  cases last.enable <;> simp [flagText]
                simp [hnone, shellName_enableKey, hword, hvalue, hlast, hflag]

/-- Both readers agree with the response exactly when they are reliable. -/
theorem Written.tellsTruth_iff {features : List Json} {dev now : Device}
    (hwritten : Written features dev) (hsame : SameFiles dev now) (env : ShellEnv) {name : Str}
    (h : ScriptName name) : TellsTruth env now features name ↔ Reliable env features name := by
  have hapi := isRFCEnabled_iff hwritten hsame h
  have hscript := isFeatureEnabled_iff hwritten hsame env h
  rw [TellsTruth, Reliable, hapi, enabledIn_iff h, Bool.eq_iff_iff, hapi, ← hscript]
  by_cases hnone : markers features name = []
  · simp [hnone, hscript]
  · simp only [hnone, not_false_eq_true, ne_eq, true_iff, false_or, and_iff_right_iff_imp]
    intro henabled
    obtain ⟨-, -, last, hlast, hflag⟩ := hscript.mp henabled
    exact ⟨last, List.mem_of_getLast? hlast, hflag⟩

/-- After any runs on any device, for as long as the files of the last applied response are there, both
readers agree with it exactly when they are reliable. -/
theorem syncs_truthful (runs : List Run) (dev : Device)
    (hfresh : ∀ run ∈ runs, run.proc.rfcKeyAndValueMap = ∅ ∧ run.proc.urlValidationInProgress = false) :
    Truthful (syncs runs dev) := by
  intro body dev' hmem
  obtain ⟨-, features, hfeatures, hwritten⟩ := syncs_appliedOf runs dev hfresh body dev' hmem
  exact ⟨features, hfeatures, fun now hsame env name hname =>
    hwritten.tellsTruth_iff hsame env hname⟩

/-! ### Two runs -/

/-- A response with one feature, which has an instance. -/
def lsaResponse (enable : Bool) : Body :=
  responseBody [.object [("name".toList, .string "LSA".toList), ("enable".toList, .bool enable),
    ("effectiveImmediate".toList, .bool true), ("featureInstance".toList, .string "LSA".toList)]]

def lsaRun (enable : Bool) : List Run :=
  [⟨.plain, fun _ => .answered 200 (lsaResponse enable), .fresh⟩]

theorem syncs_truthful_lsa : Truthful (syncs (lsaRun true) .blank) := by
  refine syncs_truthful (lsaRun true) .blank ?_
  intro run hrun
  obtain rfl := List.mem_singleton.mp hrun
  exact ⟨rfl, rfl⟩

/-- A feature that is delivered with `enable` false has a marker, and the API takes it for enabled. -/
theorem not_truthful_lsa :
    ∃ body dev features, .applied body dev ∈ syncs (lsaRun false) .blank ∧
      body.features = some features ∧ isRFCEnabled dev "LSA".toList = true ∧
      ¬ EnabledIn features "LSA".toList ∧
      isFeatureEnabled ⟨true, fun _ => false, fun _ => none⟩ dev "LSA".toList = false := by
  have hrun : (syncs (lsaRun false) .blank).any (Event.endsWith fun body dev =>
      body.features.any (fun features => (markers features "LSA".toList).all fun obj => !obj.enable) &&
      isRFCEnabled dev "LSA".toList &&
      !isFeatureEnabled ⟨true, fun _ => false, fun _ => none⟩ dev "LSA".toList) = true := by
    decide +kernel
  obtain ⟨body, dev, happlied, hend⟩ := exists_applied_of_any hrun
  simp only [Bool.and_eq_true, Bool.not_eq_true', Option.any_eq_true] at hend
  obtain ⟨⟨⟨features, hfeatures, hflags⟩, hapi⟩, hscript⟩ := hend
  have hname : ScriptName "LSA".toList := ⟨by simp, by simp [rfcMaxLen], by simp [wordChar]⟩
  refine ⟨body, dev, features, happlied, hfeatures, hapi, ?_, hscript⟩
  rw [enabledIn_iff hname]
  rintro ⟨obj, hobj, henable⟩
  have hoff := List.all_eq_true.mp hflags obj hobj
  rw [henable] at hoff
  cases hoff

end RfcMgr
