import RfcMgr.FeatureFiles
import RfcMgr.KeyValueLines

/-! Reading `rfcVariable.ini` back: `getRFCParameter` of rfcapi.cpp before the hostif is ready. -/

namespace RfcMgr

open KeyValueLines

namespace RfcApi

/-- The files `getRFCParameter` falls back to. -/
structure LocalFiles where
  rfcVar : Option Str
  tr181Store : Option Str
  bootstrap : Option Str
  rfcDefaults : Option Str
  /-- What `init_rfcdefaults` puts together when `/tmp/rfcdefaults.ini` is missing. -/
  etcDefaults : Option Str

/-- `WDMP_ERR_VALUE_IS_EMPTY`. -/
def wdmpErrValueIsEmpty : WdmpStatus := .other 22

/-- Removes any export word before the key: everything up to the first blank or tab. -/
def stripExport (line : Str) : Str :=
  match line.dropWhile fun c => c != ' ' && c != '\t' with
  | [] => line
  | _ :: rest => rest

/-- The value on the first line with that key. -/
def lineValue (file : Option Str) (name : Str) : Option Str :=
  file.bind fun text => (((getLines text).map stripExport).filterMap splitEntry).lookup name

/-- The status, and the value that is copied to `pstParam`. -/
def getValue (file : Option Str) (pcParameterName : Str) : WdmpStatus × Option Str :=
  match lineValue file pcParameterName with
  | none => (.failure, none)
  | some [] => (wdmpErrValueIsEmpty, none)
  | some value => (.success, some ((cStr value).take (maxParamLen - 1)))

theorem getValue_none {file : Option Str} {name : Str} (h : lineValue file name = none) :
    getValue file name = (.failure, none) := by
  rw [getValue, h]

theorem getValue_empty {file : Option Str} {name : Str} (h : lineValue file name = some []) :
    getValue file name = (wdmpErrValueIsEmpty, none) := by
  rw [getValue, h]

theorem getValue_found {file : Option Str} {name : Str} {c : Char} {value : Str}
    (h : lineValue file name = some (c :: value)) :
    getValue file name = (.success, some ((cStr (c :: value)).take (maxParamLen - 1))) := by
  rw [getValue, h]

theorem getValue_congr {file other : Option Str} {key : Str}
    (h : lineValue file key = lineValue other key) : getValue file key = getValue other key := by
  rw [getValue, getValue, h]

/-- `getRFCParameter` while `/tmp/.tr69hostif_http_server_ready` is not there. -/
def getRFCParameter (files : LocalFiles) (pcParameterName : Str) : WdmpStatus × Option Str :=
  if pcParameterName.getLast? = some '.' then (.failure, none)
  else if "RFC_".toList.isPrefixOf pcParameterName ∧ '.' ∉ pcParameterName then
    getValue files.rfcVar pcParameterName
  else
    let stored := getValue files.tr181Store pcParameterName
    if stored.1 = .success then stored
    else
      let bootstrapped := getValue files.bootstrap pcParameterName
      if bootstrapped.1 = .success then bootstrapped
      else getValue (files.rfcDefaults.or files.etcDefaults) pcParameterName

end RfcApi

open RfcApi

/-- The files a device leaves to the API, with the defaults it has. -/
def Device.localFiles (dev : Device) (rfcDefaults etcDefaults : Option Str) : LocalFiles :=
  ⟨dev.files varFile, dev.files tr181StoreFile, dev.files bsStoreFilename, rfcDefaults, etcDefaults⟩

def flagText (flag : Bool) : Str := if flag then "true".toList else "false".toList

/-- The name a response gives a feature, before `getRFCName` cuts it to its buffer. -/
def featureName (feature : Json) : Str :=
  ((feature.getJsonItem "name".toList).bind Json.itemVal).getD []

/-- No whitespace, `=` or newline. -/
def VarName (name : Str) : Prop := ' ' ∉ name ∧ '\t' ∉ name ∧ '=' ∉ name ∧ '\n' ∉ name

def enableKey (name : Str) : Str := "RFC_ENABLE_".toList ++ name

/-- The flag on the line of a feature that reads `RFC_ENABLE_<name>=`: its enable line, or the
effectiveImmediate line of a feature whose own name starts with `ENABLE_`. -/
def lineFlag (name : Str) (obj : RuntimeFeatureControlObject) : Option Bool :=
  if obj.name = name then some obj.enable
  else if obj.name ++ "_effectiveImmediate".toList = "ENABLE_".toList ++ name then
    some obj.effectiveImmediate
  else none

/-- What the other files say to a key: the first that has a value for it. -/
def overriding (files : LocalFiles) (key : Str) : Option Str :=
  let value (file : Option Str) : Option Str := ((lineValue file key).filter (· ≠ [])).map cStr
  (value files.tr181Store).or
    ((value files.bootstrap).or (value (files.rfcDefaults.or files.etcDefaults)))

/-- When the API finds the flag of a feature: for a name without a dot, when the first line for the
key is the feature's own or says the same; a name with a dot is looked up in the other files. -/
def Readable (files : LocalFiles) (objs : List RuntimeFeatureControlObject) (name : Str)
    (enable : Bool) : Prop :=
  if '.' ∈ name then
    name.getLast? ≠ some '.' ∧ overriding files (enableKey name) = some (flagText enable)
  else objs.findSome? (lineFlag name) = some enable

/-- Every success in the trace leaves files from which the API reads the flag of a feature exactly when
it is readable. -/
def VariablesRead (es : List Event) : Prop :=
  ∀ body dev rfcDefaults etcDefaults, .applied body dev ∈ es →
    ∃ features, body.features = some features ∧
      ((∀ feature ∈ features, VarName (featureName feature)) →
        ∀ feature ∈ features, ∀ obj, readFeature feature = some obj →
          (RfcApi.getRFCParameter (dev.localFiles rfcDefaults etcDefaults)
              (enableKey (featureName feature)) = (.success, some (flagText obj.enable)) ↔
            Readable (dev.localFiles rfcDefaults etcDefaults) (accepted features)
              (featureName feature) obj.enable))

/-! ### The lines of the file -/

/-- The two entries of a feature. -/
def exportEntries (obj : RuntimeFeatureControlObject) : List (Str × Str) :=
  [(enableKey obj.name, flagText obj.enable),
    ("RFC_".toList ++ obj.name ++ "_effectiveImmediate".toList, flagText obj.effectiveImmediate)]

def exportLine (entry : Str × Str) : Str := "export ".toList ++ printEntry entry

theorem exportLines_eq (obj : RuntimeFeatureControlObject) :
    exportLines obj = (exportEntries obj).flatMap fun entry => exportLine entry ++ ['\n'] := by
  have hnewline : "\n".toList = ['\n'] := by simp
  have hequals : "=".toList = ['='] := by simp
  have henable : "export RFC_ENABLE_".toList = "export ".toList ++ "RFC_ENABLE_".toList := by
    simp
  have heffective : "export RFC_".toList = "export ".toList ++ "RFC_".toList := by simp
  have hsuffix : "_effectiveImmediate=".toList = "_effectiveImmediate".toList ++ ['='] := by
    simp
  unfold exportLines exportEntries
  rw [hnewline, hequals, henable, heffective, hsuffix, List.flatMap_cons, List.flatMap_cons,
    List.flatMap_nil, List.append_nil]
  unfold exportLine printEntry enableKey flagText
  simp only [List.append_assoc, List.cons_append, List.nil_append]

/-- What features have written, line by line. -/
theorem getLines_exportLines {objs : List RuntimeFeatureControlObject}
    (h : ∀ entry ∈ objs.flatMap exportEntries, Plain entry) :
    getLines (objs.flatMap exportLines) = (objs.flatMap exportEntries).map exportLine := by
  have hlines : ∀ line ∈ (objs.flatMap exportEntries).map exportLine, '\n' ∉ line := by
    intro line hline
    obtain ⟨entry, hentry, rfl⟩ := List.mem_map.mp hline
    have hexport : '\n' ∉ "export ".toList := by simp
    unfold exportLine
    rw [List.mem_append, not_or]
    exact ⟨hexport, (h entry hentry).line⟩
  rw [← getLines_flatMap hlines, List.flatMap_map, List.flatMap_assoc]
  exact congrArg getLines (List.flatMap_congr fun obj _ => exportLines_eq obj)

theorem flagText_plain (flag : Bool) : '\n' ∉ flagText flag := by
  cases flag <;> decide

theorem exportEntries_plain {obj : RuntimeFeatureControlObject} (h : VarName obj.name) :
    ∀ entry ∈ exportEntries obj, Plain entry := by
  have hkeys : ∀ c : Char, c = '=' ∨ c = '\n' → c ∉ "RFC_ENABLE_".toList ∧ c ∉ "RFC_".toList ∧
      c ∉ "_effectiveImmediate".toList := by
    rintro c (rfl | rfl)
    · simp
    · simp
  have hequals := hkeys '=' (Or.inl rfl)
  have hnewline := hkeys '\n' (Or.inr rfl)
  intro entry hentry
  unfold exportEntries enableKey at hentry
  rcases List.mem_cons.mp hentry with rfl | hentry
  · refine ⟨?_, ?_, flagText_plain _⟩
    · exact fun hmem => (List.mem_append.mp hmem).elim hequals.1 h.2.2.1
    · exact fun hmem => (List.mem_append.mp hmem).elim hnewline.1 h.2.2.2
  · obtain rfl := List.mem_singleton.mp hentry
    refine ⟨?_, ?_, flagText_plain _⟩
    · simp only [List.mem_append, not_or]
      exact ⟨⟨hequals.2.1, h.2.2.1⟩, hequals.2.2⟩
    · simp only [List.mem_append, not_or]
      exact ⟨⟨hnewline.2.1, h.2.2.2⟩, hnewline.2.2⟩

theorem exportEntries_plain_all {objs : List RuntimeFeatureControlObject}
    (h : ∀ obj ∈ objs, VarName obj.name) : ∀ entry ∈ objs.flatMap exportEntries, Plain entry := by
  intro entry hentry
  obtain ⟨obj, hobj, hentry⟩ := List.mem_flatMap.mp hentry
  exact exportEntries_plain (h obj hobj) entry hentry

/-- The blank behind `export` is the first of the line. -/
theorem stripExport_exportLine (entry : Str × Str) :
    stripExport (exportLine entry) = printEntry entry := by
  have hexport : "export ".toList = ['e', 'x', 'p', 'o', 'r', 't', ' '] := by simp
  unfold exportLine
  rw [hexport]
  rfl

/-- What the API reads from a file that features have written. -/
theorem lineValue_exportLines {objs : List RuntimeFeatureControlObject}
    (h : ∀ obj ∈ objs, VarName obj.name) (key : Str) :
    lineValue (some (objs.flatMap exportLines)) key = (objs.flatMap exportEntries).lookup key := by
  have hplain := exportEntries_plain_all h
  have hentries : (((objs.flatMap exportEntries).map exportLine).map stripExport).filterMap splitEntry =
      objs.flatMap exportEntries := by
    rw [List.map_map, List.filterMap_map]
    calc (objs.flatMap exportEntries).filterMap (splitEntry ∘ stripExport ∘ exportLine)
        = (objs.flatMap exportEntries).filterMap some := by
          refine List.filterMap_congr fun entry hentry => ?_
          show splitEntry (stripExport (exportLine entry)) = some entry
          rw [stripExport_exportLine]
          exact splitEntry_append (hplain entry hentry).no_equals entry.2
      _ = objs.flatMap exportEntries := List.filterMap_some
  rw [lineValue, Option.bind_some, getLines_exportLines hplain, hentries]

/-- A line for `RFC_ENABLE_<name>` is one of those `lineFlag` tells. -/
theorem lookup_exportEntries (obj : RuntimeFeatureControlObject) (name : Str) :
    (exportEntries obj).lookup (enableKey name) = (lineFlag name obj).map flagText := by
  have hsplit : "RFC_ENABLE_".toList = "RFC_".toList ++ "ENABLE_".toList := by simp
  have henable : enableKey name = enableKey obj.name ↔ obj.name = name := by
    unfold enableKey
    rw [List.append_cancel_left_eq]
    exact eq_comm
  have heffective : enableKey name = "RFC_".toList ++ obj.name ++ "_effectiveImmediate".toList ↔
      obj.name ++ "_effectiveImmediate".toList = "ENABLE_".toList ++ name := by
    unfold enableKey
    rw [hsplit, List.append_assoc, List.append_assoc, List.append_cancel_left_eq]
    exact eq_comm
  rw [exportEntries, lineFlag, List.lookup_cons, List.lookup_cons, List.lookup_nil]
  by_cases hown : obj.name = name
  · rw [if_pos hown, beq_iff_eq.mpr (henable.mpr hown)]
    rfl
  · rw [if_neg hown, beq_eq_false_iff_ne.mpr fun h => hown (henable.mp h)]
    by_cases hother : obj.name ++ "_effectiveImmediate".toList = "ENABLE_".toList ++ name
    · rw [if_pos hother, beq_iff_eq.mpr (heffective.mpr hother)]
      rfl
    · rw [if_neg hother, beq_eq_false_iff_ne.mpr fun h => hother (heffective.mp h)]
      rfl

theorem lookup_flatMap_exportEntries (objs : List RuntimeFeatureControlObject) (name : Str) :
    (objs.flatMap exportEntries).lookup (enableKey name) =
      (objs.findSome? (lineFlag name)).map flagText := by
  rw [lookup_flatMap, List.map_findSome?]
  congr 1
  funext obj
  exact lookup_exportEntries obj name

/-! ### Reading a flag -/

theorem flagText_injective {flag flag' : Bool} (h : flagText flag = flagText flag') : flag = flag' := by
  cases flag with
  | true =>
      cases flag' with
      | true => rfl
      | false => exact absurd h (by simp [flagText])
  | false =>
      cases flag' with
      | true => exact absurd h (by simp [flagText])
      | false => rfl

theorem flagText_ne_nil (flag : Bool) : flagText flag ≠ [] := by
  cases flag <;> simp [flagText]

theorem cStr_flagText (flag : Bool) : cStr (flagText flag) = flagText flag := by
  have hnul : Char.ofNat 0 ∉ flagText flag := by
    cases flag <;> decide
  exact cStr_of_not_mem hnul

/-- No value is cut down to a flag. -/
theorem take_eq_flagText {value : Str} {flag : Bool} :
    value.take (maxParamLen - 1) = flagText flag ↔ value = flagText flag := by
  have hlen : (flagText flag).length < maxParamLen - 1 := by
    cases flag <;> simp [flagText, maxParamLen]
  constructor
  · intro h
    have hvalue : value.length ≤ maxParamLen - 1 := by
      have hcut := congrArg List.length h
      rw [List.length_take] at hcut
      omega
    rwa [List.take_of_length_le hvalue] at h
  · rintro rfl
    exact List.take_of_length_le hlen.le

theorem getValue_eq_flag_iff {file : Option Str} {key : Str} {flag : Bool} :
    getValue file key = (.success, some (flagText flag)) ↔
      ((lineValue file key).filter (· ≠ [])).map cStr = some (flagText flag) := by
  unfold getValue
  cases lineValue file key with
  | none => simp
  | some value =>
      cases value with
      | nil => simp [wdmpErrValueIsEmpty]
      | cons c value =>
          simp only [Prod.mk.injEq, true_and, Option.some.injEq, take_eq_flagText,
            Option.filter_some, ne_eq, reduceCtorEq, not_false_eq_true, decide_true, if_true,
            Option.map_some]

theorem getValue_success_iff {file : Option Str} {key : Str} :
    (getValue file key).1 = .success ↔
      (((lineValue file key).filter (· ≠ [])).map cStr).isSome := by
  unfold getValue
  cases lineValue file key with
  | none => simp
  | some value =>
      cases value with
      | nil => simp [wdmpErrValueIsEmpty]
      | cons c value => simp

theorem enableKey_start (name : Str) : "RFC_".toList.isPrefixOf (enableKey name) = true := by
  have hsplit : "RFC_ENABLE_".toList = "RFC_".toList ++ "ENABLE_".toList := by simp
  unfold enableKey
  rw [List.isPrefixOf_iff_prefix, hsplit, List.append_assoc]
  exact List.prefix_append ..

theorem dot_mem_enableKey {name : Str} : '.' ∈ enableKey name ↔ '.' ∈ name := by
  have hprefix : '.' ∉ "RFC_ENABLE_".toList := by simp
  unfold enableKey
  rw [List.mem_append, or_iff_right hprefix]

theorem getLast?_enableKey (name : Str) :
    (enableKey name).getLast? = some '.' ↔ name.getLast? = some '.' := by
  have hprefix : "RFC_ENABLE_".toList.getLast? = some '_' := by simp
  unfold enableKey
  rw [List.getLast?_append]
  cases name.getLast? with
  | none => simp
  | some c => rfl

/-- A key without a dot is looked up in the variable file. -/
theorem getRFCParameter_of_dotless {files : LocalFiles} {name : Str} (h : '.' ∉ name) :
    RfcApi.getRFCParameter files (enableKey name) = getValue files.rfcVar (enableKey name) := by
  have hlast : (enableKey name).getLast? ≠ some '.' := fun hdot =>
    h (dot_mem_enableKey.mp (List.mem_of_getLast? hdot))
  unfold RfcApi.getRFCParameter
  rw [if_neg hlast, if_pos ⟨enableKey_start name, fun hdot => h (dot_mem_enableKey.mp hdot)⟩]

/-- A key with a dot is looked up in the others, the first success deciding. -/
theorem getRFCParameter_of_dot {files : LocalFiles} {name : Str} (h : '.' ∈ name) {flag : Bool} :
    RfcApi.getRFCParameter files (enableKey name) = (.success, some (flagText flag)) ↔
      name.getLast? ≠ some '.' ∧ overriding files (enableKey name) = some (flagText flag) := by
  unfold RfcApi.getRFCParameter
  by_cases hlast : name.getLast? = some '.'
  · rw [if_pos ((getLast?_enableKey name).mpr hlast)]
    simp [hlast]
  · have hroute : ¬("RFC_".toList.isPrefixOf (enableKey name) = true ∧ '.' ∉ enableKey name) :=
      fun hdotless => hdotless.2 (dot_mem_enableKey.mpr h)
    rw [if_neg fun hdot => hlast ((getLast?_enableKey name).mp hdot), if_neg hroute, overriding,
      and_iff_right hlast]
    simp only [getValue_success_iff]
    cases hstored : ((lineValue files.tr181Store (enableKey name)).filter (· ≠ [])).map cStr with
    | some value =>
        rw [Option.isSome_some, if_pos rfl, Option.some_or, getValue_eq_flag_iff, hstored]
    | none =>
        rw [Option.isSome_none, if_neg Bool.false_ne_true, Option.none_or]
        cases hboot : ((lineValue files.bootstrap (enableKey name)).filter (· ≠ [])).map cStr with
        | some value =>
            rw [Option.isSome_some, if_pos rfl, Option.some_or, getValue_eq_flag_iff, hboot]
        | none =>
            rw [Option.isSome_none, if_neg Bool.false_ne_true, Option.none_or, getValue_eq_flag_iff]

theorem name_of_readFeature {feature : Json} {obj : RuntimeFeatureControlObject}
    (h : readFeature feature = some obj) : obj.name = (featureName feature).take (rfcMaxLen - 1) := by
  simp only [readFeature, Option.bind_eq_some_iff, Option.map_eq_some_iff] at h
  obtain ⟨name, hname, enable, -, effectiveImmediate, -, rfl⟩ := h
  show name = (featureName feature).take (rfcMaxLen - 1)
  unfold getRFCName readMember Json.getJsonVal at hname
  unfold featureName
  cases hval : (feature.getJsonItem "name".toList).bind Json.itemVal with
  | none => rw [hval] at hname; simp at hname
  | some value =>
      rw [hval] at hname
      simp only [Option.ite_none_left_eq_some, Option.some.injEq] at hname
      exact hname.2.symm

theorem VarName.take {name : Str} (h : VarName name) (n : Nat) : VarName (name.take n) :=
  ⟨fun hc => h.1 (List.mem_of_mem_take hc), fun hc => h.2.1 (List.mem_of_mem_take hc),
    fun hc => h.2.2.1 (List.mem_of_mem_take hc), fun hc => h.2.2.2 (List.mem_of_mem_take hc)⟩

/-- On a device that holds a response the API reads the flag of a feature exactly when it is
readable. -/
theorem Written.reads_iff {features : List Json} {dev : Device} (hwritten : Written features dev)
    (hnames : ∀ feature ∈ features, VarName (featureName feature)) (rfcDefaults etcDefaults : Option Str)
    {feature : Json} (hfeature : feature ∈ features) {obj : RuntimeFeatureControlObject}
    (hobj : readFeature feature = some obj) :
    RfcApi.getRFCParameter (dev.localFiles rfcDefaults etcDefaults)
        (enableKey (featureName feature)) = (.success, some (flagText obj.enable)) ↔
      Readable (dev.localFiles rfcDefaults etcDefaults) (accepted features) (featureName feature)
        obj.enable := by
  unfold Readable
  split
  next hdot => exact getRFCParameter_of_dot hdot
  next hdotless =>
    have hplain : ∀ other ∈ accepted features, VarName other.name := by
      intro other hother
      obtain ⟨item, hitem, hread⟩ := List.mem_filterMap.mp hother
      rw [name_of_readFeature hread]
      exact (hnames item hitem).take _
    have hsome : accepted features ≠ [] := by
      have hmem : obj ∈ accepted features := List.mem_filterMap.mpr ⟨feature, hfeature, hobj⟩
      exact List.ne_nil_of_mem hmem
    have hfile : (dev.localFiles rfcDefaults etcDefaults).rfcVar =
        some ((accepted features).flatMap exportLines) := by
      show dev.files varFile = _
      rw [hwritten.variableFile, appendLines, if_neg hsome]
      rfl
    rw [getRFCParameter_of_dotless hdotless, getValue_eq_flag_iff, hfile,
      lineValue_exportLines hplain, lookup_flatMap_exportEntries]
    cases (accepted features).findSome? (lineFlag (featureName feature)) with
    | none => simp
    | some flag =>
        simp only [Option.map_some, Option.filter_some, flagText_ne_nil, ne_eq, not_false_eq_true,
          decide_true, if_true, cStr_flagText, Option.some.injEq]
        exact ⟨flagText_injective, fun h => congrArg flagText h⟩

/-- After any runs on any device, every applied response has left files from which the API, before
the hostif is ready, reads the flag of a feature exactly when it is readable. -/
theorem syncs_variablesRead (runs : List Run) (dev : Device)
    (hfresh : ∀ run ∈ runs, run.proc.rfcKeyAndValueMap = ∅ ∧ run.proc.urlValidationInProgress = false) :
    VariablesRead (syncs runs dev) := by
  intro body dev' rfcDefaults etcDefaults hmem
  obtain ⟨-, features, hfeatures, hwritten⟩ := syncs_appliedOf runs dev hfresh body dev' hmem
  exact ⟨features, hfeatures, fun hnames feature hfeature obj hobj =>
    hwritten.reads_iff hnames rfcDefaults etcDefaults hfeature hobj⟩

/-! ### Two runs -/

/-- A feature without parameters. -/
def nameResponse (name : Str) : Body := responseBody [.object (plainFeature name [])]

def nameRun (name : Str) : List Run := [⟨.plain, fun _ => .answered 200 (nameResponse name), .fresh⟩]

theorem syncs_variablesRead_plain :
    VariablesRead (syncs (nameRun "SSHWhiteList".toList) .blank) := by
  refine syncs_variablesRead (nameRun "SSHWhiteList".toList) .blank ?_
  intro run hrun
  obtain rfl := List.mem_singleton.mp hrun
  exact ⟨rfl, rfl⟩

/-- A name with a dot is written to the variable file and looked up elsewhere. -/
theorem not_read_telemetry :
    ∃ body dev, .applied body dev ∈ syncs (nameRun "Telemetry_2.0".toList) .blank ∧
      dev.files varFile =
        some "export RFC_ENABLE_Telemetry_2.0=true\nexport RFC_Telemetry_2.0_effectiveImmediate=true\n".toList ∧
      RfcApi.getRFCParameter (dev.localFiles none none) "RFC_ENABLE_Telemetry_2.0".toList =
        (.failure, none) := by
  have hrun : (syncs (nameRun "Telemetry_2.0".toList) .blank).any (Event.endsWith fun _ dev =>
      decide (dev.files varFile =
        some "export RFC_ENABLE_Telemetry_2.0=true\nexport RFC_Telemetry_2.0_effectiveImmediate=true\n".toList) &&
      decide (RfcApi.getRFCParameter (dev.localFiles none none) "RFC_ENABLE_Telemetry_2.0".toList =
        (.failure, none))) = true := by decide +kernel
  obtain ⟨body, dev, happlied, hend⟩ := exists_applied_of_any hrun
  obtain ⟨hfile, hread⟩ := (Bool.and_eq_true _ _).mp hend
  exact ⟨body, dev, happlied, of_decide_eq_true hfile, of_decide_eq_true hread⟩

end RfcMgr
