import RfcMgr.RfcCommon
import RfcMgr.KeyValueLines
import Mathlib.Logic.Function.Basic

/-! The local parameter store of tr181api.cpp: a file of `key=value` lines that every set and clear
reads as a whole and writes back in whatever order its hash map is iterated. -/

namespace RfcMgr.LocalStore

open Std KeyValueLines LastInsert

inductive Tr181ErrorCode where
  | success
  | failure
  | valueIsEmpty
  deriving DecidableEq

/-- The status of a get, and what it copies to `pstParam->value`. -/
structure Answer where
  status : Tr181ErrorCode
  value : Option Str
  deriving DecidableEq

/-- The contents of the files by their paths. -/
abbrev Files := Str → Option Str

def tr181ClearParam : Str := "Device.DeviceInfo.X_RDKCENTRAL-COM_RFC.ClearParam".toList
def tr181LocalStoreFile : Str := "/opt/secure/RFC/tr181localstore.ini".toList
def rfcdefaultsEtcDir : Str := "/etc/rfcdefaults/".toList

/-- `MAX_PARAM_LEN`, the length of `pstParam->value`. -/
def maxParamLen : Nat := 2048

/-- The first line of that key decides. -/
def getValue (file : Option Str) (pcParameterName : Str) : Answer :=
  match file with
  | none => ⟨.failure, none⟩
  | some text =>
      match (entriesOf text).lookup pcParameterName with
      | none => ⟨.failure, none⟩
      | some [] => ⟨.valueIsEmpty, none⟩
      | some value => ⟨.success, some ((cStr value).take (maxParamLen - 1))⟩

/-- The buffer of 256 bytes: the caller's name is cut so that `.ini` still fits. -/
def defaultsFilename (pcCallerID : Str) : Str :=
  rfcdefaultsEtcDir ++ pcCallerID.take (256 - rfcdefaultsEtcDir.length - 5) ++ ".ini".toList

/-- `none` is a null `pcCallerID`. -/
def getDefaultValue (files : Files) (pcCallerID : Option Str) (pcParameterName : Str) : Answer :=
  match pcCallerID with
  | none => ⟨.failure, none⟩
  | some callerId => getValue (files (defaultsFilename callerId)) pcParameterName

/-- An iteration order of the hash map. -/
structure IterationOrder where
  list : List (Str × Str) → List (Str × Str)
  perm : ∀ entries, (list entries).Perm entries

/-- What a call meets outside the process. -/
structure Access where
  semOpens : Bool
  /-- `fopen(TR181_LOCAL_STORE_FILE, "w")`. -/
  storeOpens : Bool
  order : IterationOrder

abbrev Dict := TreeMap Str Str

/-- The reading half of `setValue`. -/
def readDict (file : Option Str) : Dict := insertAll ∅ (entriesOf (file.getD []))

/-- The parameter itself or, for a name with a final dot, any parameter it occurs in. -/
def cleared (value key : Str) : Bool :=
  key == value || (value.getLast? == some '.' && contains key value)

/-- The loop over the copy of the map, with `foundInLocalStore`. -/
def clearEntries (order : IterationOrder) (dict : Dict) (value : Str) : Dict × Bool :=
  (order.list dict.toList).foldl
    (fun acc entry => if cleared value entry.1 then (acc.1.erase entry.1, true) else acc)
    (dict, false)

def printDict (order : IterationOrder) (dict : Dict) : Str :=
  printLines ((order.list dict.toList).map cEntry)

/-- The writing half of `setValue`: its status and, when it writes, the new content. -/
def writeBack (env : Access) (dict : Dict) (key value : Str) : Tr181ErrorCode × Option Str :=
  let write (dict : Dict) : Tr181ErrorCode × Option Str :=
    if env.storeOpens then (.success, some (printDict env.order dict)) else (.failure, none)
  if key = tr181ClearParam then
    let (rest, foundInLocalStore) := clearEntries env.order dict value
    if foundInLocalStore then write rest else (.success, none)
  else write (dict.insert key value)

/-- The store file after a write-back. -/
def storeWritten (files : Files) (content : Option Str) : Files :=
  match content with
  | none => files
  | some text => Function.update files tr181LocalStoreFile (some text)

def setValue (env : Access) (files : Files) (pcParameterName pcParamValue : Str) :
    Tr181ErrorCode × Files :=
  let (status, content) :=
    writeBack env (readDict (files tr181LocalStoreFile)) pcParameterName pcParamValue
  (status, storeWritten files content)

/-- A `sem_wait` or `sem_post` that fails is only logged, so a caller on its own passes both. -/
def setLocalParam (env : Access) (files : Files) (pcParameterName pcParameterValue : Str) :
    Tr181ErrorCode × Files :=
  if env.semOpens then setValue env files pcParameterName pcParameterValue else (.failure, files)

def clearLocalParam (env : Access) (files : Files) (pcParameterName : Str) :
    Tr181ErrorCode × Files :=
  if env.semOpens then setValue env files tr181ClearParam pcParameterName else (.failure, files)

def getLocalParam (semOpens : Bool) (files : Files) (pcCallerID : Option Str)
    (pcParameterName : Str) : Answer :=
  if semOpens then
    let answer := getValue (files tr181LocalStoreFile) pcParameterName
    if answer.status = .success then answer else getDefaultValue files pcCallerID pcParameterName
  else ⟨.failure, none⟩

/-! ### The finite map -/

/-- A call that changes the store. -/
inductive Call where
  | set (key value : Str)
  | clear (key : Str)

def Call.run (env : Access) (files : Files) : Call → Tr181ErrorCode × Files
  | .set key value => setLocalParam env files key value
  | .clear key => clearLocalParam env files key

/-- The name and the value `setValue` is called with. -/
def Call.arguments : Call → Str × Str
  | .set key value => (key, value)
  | .clear key => (tr181ClearParam, key)

def runCalls (files : Files) (calls : List (Call × Access)) : Files :=
  calls.foldl (fun files call => (call.1.run call.2 files).2) files

/-- What a call is meant to do to the parameters. -/
def Call.apply (params : Str → Option Str) : Call → Str → Option Str
  | .set key value => Function.update params key (some value)
  | .clear key => Function.update params key none

/-- The parameters that the calls leave set. -/
def paramsAfter (calls : List Call) : Str → Option Str := calls.foldl Call.apply fun _ => none

/-- A parameter name the line format can hold. -/
structure PlainName (key : Str) : Prop where
  nonempty : key ≠ []
  no_equals : '=' ∉ key
  no_newline : '\n' ∉ key
  no_nul : Char.ofNat 0 ∉ key
  no_wildcard : key.getLast? ≠ some '.'
  no_control : key ≠ tr181ClearParam

def Call.Plain : Call → Prop
  | .set key value => PlainName key ∧ '\n' ∉ value ∧ Char.ofNat 0 ∉ value
  | .clear key => PlainName key

/-- An entry that a write-back prints as it is, and a line gives back. -/
structure PlainEntry (entry : Str × Str) : Prop extends Plain entry where
  key_nul : Char.ofNat 0 ∉ entry.1
  value_nul : Char.ofNat 0 ∉ entry.2

theorem PlainEntry.cEntry_eq {entry : Str × Str} (h : PlainEntry entry) : cEntry entry = entry := by
  rw [cEntry, cStr_of_not_mem h.key_nul, cStr_of_not_mem h.value_nul]

/-- The semaphore and the store file open. -/
structure Access.Succeeds (env : Access) : Prop where
  sem : env.semOpens = true
  store : env.storeOpens = true

/-- The store file lists the parameters, each once. -/
def Holds (files : Files) (params : Str → Option Str) : Prop :=
  ∃ entries, (files tr181LocalStoreFile).getD [] = printLines entries ∧
    (∀ entry ∈ entries, PlainEntry entry) ∧ (entries.map (·.1)).Nodup ∧
    ∀ key, entries.lookup key = params key

/-- A missing or empty store file holds no parameters. -/
theorem holds_empty {files : Files} (h : (files tr181LocalStoreFile).getD [] = []) :
    Holds files fun _ => none :=
  ⟨[], h, by simp, List.nodup_nil, fun _ => rfl⟩

theorem Holds.plain {files : Files} {params : Str → Option Str} (h : Holds files params)
    {key value : Str} (hparam : params key = some value) : PlainEntry (key, value) := by
  obtain ⟨entries, -, hplain, hkeys, hparams⟩ := h
  exact hplain _ ((lookup_eq_some_iff_mem hkeys).mp ((hparams key).trans hparam))

theorem Holds.getElem?_readDict {files : Files} {params : Str → Option Str} (h : Holds files params)
    (key : Str) : (readDict (files tr181LocalStoreFile))[key]? = params key := by
  obtain ⟨entries, htext, hplain, hkeys, hparams⟩ := h
  rw [readDict, htext, entriesOf_printLines fun entry hentry => (hplain entry hentry).toPlain, getElem?_insertAll_empty,
    lastValue_eq_lookup hkeys, hparams]

/-- A map written in any order holds its own entries. -/
theorem holds_written (files : Files) (order : IterationOrder) {dict : Dict}
    (hplain : ∀ key value, dict[key]? = some value → PlainEntry (key, value)) :
    Holds (storeWritten files (some (printDict order dict))) (fun key => dict[key]?) := by
  have hperm := order.perm dict.toList
  have hentries : ∀ entry ∈ order.list dict.toList, PlainEntry entry := fun entry hentry =>
    hplain _ _ (TreeMap.mem_toList_iff_getElem?_eq_some.mp (hperm.mem_iff.mp hentry))
  refine ⟨order.list dict.toList, ?_, hentries, ?_, lookup_of_perm_toList hperm⟩
  · have hprinted : (order.list dict.toList).map cEntry = order.list dict.toList :=
      (List.map_congr_left fun entry hentry => (hentries entry hentry).cEntry_eq).trans (List.map_id' _)
    simp [storeWritten, printDict, hprinted]
  · exact (hperm.map (·.1)).nodup_iff.mpr (nodup_keys_toList dict)

theorem PlainName.cleared_iff {value : Str} (h : PlainName value) (key : Str) :
    cleared value key = true ↔ key = value := by
  have hdot : (value.getLast? == some '.') = false := beq_false_of_ne h.no_wildcard
  rw [cleared, hdot, Bool.false_and, Bool.or_false, beq_iff_eq]

/-- What the clearing loop leaves after some entries: exactly the keys it met and matched are gone. -/
theorem clearLoop_spec (value : Str) (entries : List (Str × Str)) (dict : Dict) (found : Bool) :
    let acc := entries.foldl
      (fun acc entry => if cleared value entry.1 then (acc.1.erase entry.1, true) else acc)
      (dict, found)
    (∀ key, acc.1[key]? =
      if cleared value key = true ∧ key ∈ entries.map (·.1) then none else dict[key]?) ∧
      acc.2 = (found || entries.any fun entry => cleared value entry.1) := by
  induction entries generalizing dict found with
  | nil => simp
  | cons entry entries ih =>
      rw [List.foldl_cons]
      split
      next hcleared =>
        obtain ⟨hdict, hfound⟩ := ih (dict.erase entry.1) true
        refine ⟨fun key => ?_, ?_⟩
        · rw [hdict key, TreeMap.getElem?_erase]
          by_cases hkey : key = entry.1
          · subst hkey
            simp [hcleared]
          · have hcmp : compare entry.1 key ≠ .eq := fun heq =>
              hkey (compare_eq_iff_eq.mp heq).symm
            simp only [List.map_cons, List.mem_cons, hkey, false_or, if_neg hcmp]
        · rw [hfound]
          simp [hcleared]
      next hkept =>
        obtain ⟨hdict, hfound⟩ := ih dict found
        refine ⟨fun key => ?_, ?_⟩
        · rw [hdict key]
          by_cases hkey : key = entry.1
          · subst hkey
            simp [hkept]
          · simp only [List.map_cons, List.mem_cons, hkey, false_or]
        · rw [hfound]
          simp [hkept]

/-- The clearing loop in any iteration order. -/
theorem clearEntries_spec (order : IterationOrder) (dict : Dict) (value : Str) :
    (∀ key, (clearEntries order dict value).1[key]? =
      if cleared value key = true then none else dict[key]?) ∧
      ((clearEntries order dict value).2 = true ↔ ∃ key ∈ dict, cleared value key = true) := by
  have hperm := order.perm dict.toList
  have hkeys : ∀ key, key ∈ (order.list dict.toList).map (·.1) ↔ key ∈ dict := fun key => by
    rw [(hperm.map (·.1)).mem_iff, TreeMap.map_fst_toList_eq_keys, TreeMap.mem_keys]
  obtain ⟨hdict, hfound⟩ := clearLoop_spec value (order.list dict.toList) dict false
  constructor
  · intro key
    rw [clearEntries, hdict key]
    simp only [hkeys]
    by_cases hmem : key ∈ dict
    · simp only [hmem, and_true]
    · rw [if_neg fun h => hmem h.2, TreeMap.getElem?_eq_none hmem, ite_self]
  · rw [clearEntries, hfound, Bool.false_or, List.any_eq_true]
    constructor
    · rintro ⟨entry, hentry, hcleared⟩
      exact ⟨entry.1, (hkeys entry.1).mp (List.mem_map_of_mem hentry), hcleared⟩
    · rintro ⟨key, hkey, hcleared⟩
      obtain ⟨entry, hentry, rfl⟩ := List.mem_map.mp ((hkeys key).mpr hkey)
      exact ⟨entry, hentry, hcleared⟩

/-- A set that opens the file leaves it with the parameter at its new value. -/
theorem Holds.set {files : Files} {params : Str → Option Str} (h : Holds files params)
    {env : Access} (hstore : env.storeOpens = true) {key value : Str} (hname : PlainName key)
    (hline : '\n' ∉ value) (hnul : Char.ofNat 0 ∉ value) :
    (setValue env files key value).1 = .success ∧
      Holds (setValue env files key value).2 (Function.update params key (some value)) := by
  have hdict : ∀ other, ((readDict (files tr181LocalStoreFile)).insert key value)[other]? =
      Function.update params key (some value) other := by
    intro other
    rw [TreeMap.getElem?_insert, Function.update_apply]
    by_cases hkey : other = key
    · simp [hkey]
    · have hcmp : compare key other ≠ .eq := fun heq => hkey (compare_eq_iff_eq.mp heq).symm
      rw [if_neg hcmp, if_neg hkey, h.getElem?_readDict]
  have hentry : ∀ other text,
      ((readDict (files tr181LocalStoreFile)).insert key value)[other]? = some text →
      PlainEntry (other, text) := by
    intro other text htext
    rw [hdict, Function.update_apply] at htext
    split at htext
    next hkey =>
      obtain rfl := Option.some.inj htext
      subst hkey
      exact ⟨⟨hname.no_equals, hname.no_newline, hline⟩, hname.no_nul, hnul⟩
    next => exact h.plain htext
  simp only [setValue, writeBack, if_neg hname.no_control, hstore, if_true, true_and]
  have hholds := holds_written files env.order hentry
  rwa [funext hdict] at hholds

/-- A clear leaves it without the parameter, and as it is when it does not find it. -/
theorem Holds.clear {files : Files} {params : Str → Option Str} (h : Holds files params)
    {env : Access} (hstore : env.storeOpens = true) {key : Str} (hname : PlainName key) :
    (setValue env files tr181ClearParam key).1 = .success ∧
      Holds (setValue env files tr181ClearParam key).2 (Function.update params key none) := by
  obtain ⟨hrest, hfound⟩ := clearEntries_spec env.order (readDict (files tr181LocalStoreFile)) key
  have hdict : ∀ other, (clearEntries env.order (readDict (files tr181LocalStoreFile)) key).1[other]? =
      Function.update params key none other := by
    intro other
    simp only [hrest, Function.update_apply, h.getElem?_readDict, hname.cleared_iff]
  simp only [setValue, writeBack, if_true]
  split
  next =>
    simp only [true_and]
    have hentry : ∀ other text,
        (clearEntries env.order (readDict (files tr181LocalStoreFile)) key).1[other]? = some text →
        PlainEntry (other, text) := by
      intro other text htext
      simp only [hrest, h.getElem?_readDict] at htext
      split at htext
      · cases htext
      · exact h.plain htext
    have hholds := holds_written files env.order hentry
    rwa [funext hdict] at hholds
  next hnone =>
    -- nothing was found, so the parameter was not set
    have habsent : params key = none := by
      rw [← h.getElem?_readDict key]
      exact TreeMap.getElem?_eq_none fun hmem =>
        hnone (hfound.mpr ⟨key, hmem, (hname.cleared_iff key).mpr rfl⟩)
    have hsame : Function.update params key none = params := by
      rw [← habsent]
      exact Function.update_eq_self key params
    refine ⟨rfl, ?_⟩
    show Holds files (Function.update params key none)
    rwa [hsame]

/-- **One update.** A write-back that opens the file does to it what the call is meant to do to the
parameters. -/
theorem Holds.update {files : Files} {params : Str → Option Str} (h : Holds files params)
    {env : Access} (hstore : env.storeOpens = true) {call : Call} (hplain : call.Plain) :
    (setValue env files call.arguments.1 call.arguments.2).1 = .success ∧
      Holds (setValue env files call.arguments.1 call.arguments.2).2 (call.apply params) := by
  cases call with
  | set key value => exact h.set hstore hplain.1 hplain.2.1 hplain.2.2
  | clear key => exact h.clear hstore hplain

/-- A write-back that does not open the file leaves it. -/
theorem setValue_of_not_opens {env : Access} (hstore : env.storeOpens = false) (files : Files)
    (key value : Str) : (setValue env files key value).2 = files := by
  simp only [setValue, writeBack, hstore, Bool.false_eq_true, if_false]
  split
  · split
    · rfl
    · rfl
  · rfl

theorem Holds.run {files : Files} {params : Str → Option Str} (h : Holds files params)
    {env : Access} (henv : env.Succeeds) {call : Call} (hplain : call.Plain) :
    (call.run env files).1 = .success ∧ Holds (call.run env files).2 (call.apply params) := by
  have hrun : call.run env files = setValue env files call.arguments.1 call.arguments.2 := by
    cases call with
    | set key value => rw [Call.run, setLocalParam, henv.sem, if_pos rfl]; rfl
    | clear key => rw [Call.run, clearLocalParam, henv.sem, if_pos rfl]; rfl
  rw [hrun]
  exact h.update henv.store hplain

theorem Holds.after {files : Files} {params : Str → Option Str} (h : Holds files params)
    {calls : List (Call × Access)} (hplain : ∀ call ∈ calls, call.1.Plain)
    (henv : ∀ call ∈ calls, call.2.Succeeds) :
    Holds (runCalls files calls) ((calls.map (·.1)).foldl Call.apply params) := by
  induction calls generalizing files params with
  | nil => exact h
  | cons call calls ih =>
      have hstep := h.run (henv call List.mem_cons_self) (hplain call List.mem_cons_self)
      exact ih hstep.2 (fun other hother => hplain other (List.mem_cons_of_mem _ hother))
        fun other hother => henv other (List.mem_cons_of_mem _ hother)

/-- A get reads the parameter the file holds. -/
theorem Holds.getValue_eq {files : Files} {params : Str → Option Str} (h : Holds files params)
    (name : Str) :
    getValue (files tr181LocalStoreFile) name =
      match params name with
      | none => ⟨.failure, none⟩
      | some [] => ⟨.valueIsEmpty, none⟩
      | some value => ⟨.success, some (value.take (maxParamLen - 1))⟩ := by
  have hentry : ∀ {value}, params name = some value → PlainEntry (name, value) := h.plain
  obtain ⟨entries, htext, hplain, -, hparams⟩ := h
  have hplain' : ∀ entry ∈ entries, Plain entry := fun entry hentry => (hplain entry hentry).toPlain
  unfold getValue
  cases hfile : files tr181LocalStoreFile with
  | none =>
      have hnil : entries = [] := by
        rw [hfile, Option.getD_none] at htext
        cases entries with
        | nil => rfl
        | cons entry entries => simp [printLines] at htext
      rw [← hparams name, hnil]
      rfl
  | some text =>
      rw [hfile, Option.getD_some] at htext
      simp only [htext, entriesOf_printLines hplain', hparams name]
      cases hparam : params name with
      | none => rfl
      | some value =>
          have hnul := (hentry hparam).value_nul
          cases value with
          | nil => rfl
          | cons c value => simp only [cStr_of_not_mem hnul]

/-- **The local store refines a finite map.** Whatever calls have changed it and in whatever order
each of them has listed the map, a get answers with the value last set and not cleared since, cut
to its buffer, and for a parameter without one, or with an empty one, as the defaults file does. -/
theorem getLocalParam_runCalls (files : Files) (hstart : (files tr181LocalStoreFile).getD [] = [])
    (calls : List (Call × Access)) (hplain : ∀ call ∈ calls, call.1.Plain)
    (henv : ∀ call ∈ calls, call.2.Succeeds) (pcCallerID : Option Str) (name : Str) :
    getLocalParam true (runCalls files calls) pcCallerID name =
      match paramsAfter (calls.map (·.1)) name with
      | none => getDefaultValue (runCalls files calls) pcCallerID name
      | some [] => getDefaultValue (runCalls files calls) pcCallerID name
      | some value => ⟨.success, some (value.take 2047)⟩ := by
  have hholds := (holds_empty hstart).after hplain henv
  rw [getLocalParam, if_pos rfl, hholds.getValue_eq name, paramsAfter]
  cases (calls.map (·.1)).foldl Call.apply (fun _ => none) name with
  | none => rfl
  | some value =>
      cases value with
      | nil => rfl
      | cons c value => rfl

def IterationOrder.same : IterationOrder := ⟨id, fun _ => .refl _⟩

def IterationOrder.backward : IterationOrder := ⟨List.reverse, List.reverse_perm⟩

/-- Two parameters set, one of them twice, and one cleared; the map is listed in both directions. -/
theorem getLocalParam_runCalls_four :
    let files : Files := fun _ => none
    let calls : List (Call × Access) :=
      [(.set "A".toList "1".toList, ⟨true, true, .same⟩),
        (.set "B".toList "x=y".toList, ⟨true, true, .backward⟩),
        (.set "A".toList "2".toList, ⟨true, true, .backward⟩),
        (.clear "B".toList, ⟨true, true, .same⟩)]
    getLocalParam true (runCalls files calls) (some "rfcdefaults".toList) "A".toList =
      ⟨.success, some ("2".toList.take 2047)⟩ := by
  intro files calls
  have hA : PlainName "A".toList := by constructor <;> decide
  have hB : PlainName "B".toList := by constructor <;> decide
  have hplain : ∀ call ∈ calls, call.1.Plain := by
    simp only [calls, List.forall_mem_cons, List.not_mem_nil, false_imp_iff, implies_true, and_true]
    exact ⟨⟨hA, by decide, by decide⟩, ⟨hB, by decide, by decide⟩, ⟨hA, by decide, by decide⟩, hB⟩
  have henv : ∀ call ∈ calls, call.2.Succeeds := by
    simp only [calls, List.forall_mem_cons, List.not_mem_nil, false_imp_iff, implies_true, and_true]
    exact ⟨⟨rfl, rfl⟩, ⟨rfl, rfl⟩, ⟨rfl, rfl⟩, ⟨rfl, rfl⟩⟩
  exact getLocalParam_runCalls files rfl calls hplain henv (some "rfcdefaults".toList) "A".toList

end RfcMgr.LocalStore
