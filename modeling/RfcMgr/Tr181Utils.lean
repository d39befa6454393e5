import RfcMgr.ParseArgs
import RfcMgr.LocalStore
import RfcMgr.HostifReply

/-! The `tr181` command: what an invocation does to the local store and to the hostif, what it prints
and what it exits with. With an id that begins with `localOnly` gets and sets go to the local store;
a clear goes to the hostif whatever the id is. -/

namespace RfcMgr.Tr181Utils

open LocalStore ParseArgs
open RfcApi (ParamData)

/-! ### The interface to the hostif -/

/-- The two calls of rfcapi.cpp, over the state of the hostif. -/
structure Api (σ : Type) where
  getRFCParameter : Option Str → Str → σ → WdmpStatus × ParamData
  setRFCParameter : Option Str → Str → Str → Int → σ → WdmpStatus × σ

/-- `tr181ErrorCode_t`. -/
inductive ErrorCode where
  | success | failure | timeout | invalidParameterName | invalidParameterValue | invalidType
  | notWritable | valueIsEmpty | valueIsNull | internalError | defaultValue
  deriving DecidableEq

def ErrorCode.number : ErrorCode → Int
  | .success => 0
  | .failure => 1
  | .timeout => 2
  | .invalidParameterName => 3
  | .invalidParameterValue => 4
  | .invalidType => 5
  | .notWritable => 6
  | .valueIsEmpty => 7
  | .valueIsNull => 8
  | .internalError => 9
  | .defaultValue => 10

/-- The codes that the local store gives back. -/
def ErrorCode.ofLocal : Tr181ErrorCode → ErrorCode
  | .success => .success
  | .failure => .failure
  | .valueIsEmpty => .valueIsEmpty

def getErrorCode : WdmpStatus → ErrorCode
  | .success => .success
  | .failure => .failure
  | .errDefaultValue => .defaultValue
  | .other 2 => .timeout
  | .other 4 => .invalidParameterName
  | .other 5 => .invalidType
  | .other 6 => .invalidParameterValue
  | .other 7 => .notWritable
  | .other 22 => .valueIsEmpty
  | .other 23 => .valueIsNull
  | .other _ => .internalError

/-- The number of a `WDMP_STATUS`. -/
def statusNumber : WdmpStatus → Int
  | .success => 0
  | .failure => 1
  | .errDefaultValue => 38
  | .other statusCode => statusCode

def clearParam {σ : Type} (api : Api σ) (pcCallerID : Option Str) (pcParameterName : Str) (hostif : σ) :
    ErrorCode × σ :=
  let (wdmpStatus, hostif) :=
    api.setRFCParameter pcCallerID tr181ClearParam pcParameterName DataType.string.number hostif
  (getErrorCode wdmpStatus, hostif)

/-! ### The command -/

/-- What an invocation meets: the local store, whether `dup` has saved the descriptor that values are
written to, and what a structure that is not filled happens to hold. -/
structure Shell where
  access : Access
  stderrSaved : Bool
  uninitialised : Str

structure World (σ : Type) where
  files : Files
  hostif : σ

/-- How an invocation ends. -/
structure Exit where
  retcode : Int
  printed : Option Str

def Shell.writeValueLine (sh : Shell) (s : Str) : Option Str :=
  if sh.stderrSaved then some (s ++ ['\n']) else none

/-- `id && !strncmp(id, "localOnly", 9)`. -/
def isLocal : Option Str → Bool
  | some id => id.take 9 == "localOnly".toList
  | none => false

/-- `WDMP_NONE`. -/
def wdmpNone : Int := DataType.none.number

def convertType (type : Char) : Int :=
  match type with
  | 's' => DataType.string.number
  | 'i' => DataType.int.number
  | 'b' => DataType.boolean.number
  | _ => DataType.int.number

/-- The answer of the local store, printed when there is one. -/
def Shell.localExit (sh : Shell) (answer : Answer) : Exit :=
  ⟨(ErrorCode.ofLocal answer.status).number,
    if answer.status = .success then sh.writeValueLine (answer.value.getD sh.uninitialised) else none⟩

section Command

variable {σ : Type} (api : Api σ) (sh : Shell) (id : Option Str) (w : World σ)

/-- The structure is preset with `WDMP_NONE`, so the type is that of the hostif when it has given one. -/
def getParamType (paramName : Str) : Option Int :=
  ((api.getRFCParameter none paramName w.hostif).2.type).filter (· ≠ wdmpNone)

def getAttribute (paramName : Str) : Exit :=
  if isLocal id then sh.localExit (getLocalParam sh.access.semOpens w.files id paramName)
  else
    let (status, param) := api.getRFCParameter id paramName w.hostif
    ⟨statusNumber status,
      if status = .success ∨ status = .errDefaultValue then
        sh.writeValueLine (param.value.getD sh.uninitialised) else none⟩

def setAttribute (paramName : Str) (type : Char) (value : Str) : Exit × World σ :=
  if isLocal id then
    let (status, files) := setLocalParam sh.access w.files paramName value
    (⟨(ErrorCode.ofLocal status).number, none⟩, { w with files := files })
  else
    let paramType := (getParamType api w paramName).getD (convertType type)
    let (status, hostif) := api.setRFCParameter id paramName value paramType w.hostif
    (⟨statusNumber status, none⟩, { w with hostif := hostif })

def clearAttribute (paramName : Str) : Exit × World σ :=
  let (status, hostif) := clearParam api id paramName w.hostif
  (⟨status.number, none⟩, { w with hostif := hostif })

end Command

/-- `parseargs`; every turn advances the index, or the loop goes on for good. -/
def options (argv : List Str) : Option Options :=
  (parseLoop tr181Branch argv (argv.length + 1) ⟨1, .initial, []⟩).map (·.options)

/-- `main`, without the legacy marker file. No value is a command line that is never done with. -/
def main {σ : Type} (api : Api σ) (sh : Shell) (argv : List Str) (w : World σ) :
    Option (Exit × World σ) :=
  (options argv).map fun o =>
    match o.key, o.mode with
    | none, _ => (⟨1, none⟩, w)
    | some key, .get => (getAttribute api sh o.id w key, w)
    | some key, .deleteRow => clearAttribute api o.id w key
    | some key, .set =>
        match o.value with
        | none => (⟨1, none⟩, w)
        | some value => setAttribute api sh o.id w key o.valueType value

/-! ### The parser is done within that many turns -/

/-- A turn that is behind the option at the end advances the index. -/
theorem turn_advances {branch : Str → Branch} {argv : List Str} {arg : Str} {scan : Scan}
    (hwaits : ∀ set, branch arg = .guarded set → argv[scan.i + 1]? ≠ none) :
    scan.i < (turn branch argv arg scan).i := by
  cases hbranch : branch arg with
  | alone set =>
      rw [turn_alone hbranch]
      exact Nat.lt_succ_self _
  | guarded set =>
      obtain ⟨next, hnext⟩ := Option.ne_none_iff_exists'.mp (hwaits set hbranch)
      rw [turn_guarded hbranch hnext]
      exact Nat.lt_add_of_pos_right two_pos
  | unguarded set =>
      rw [turn_unguarded hbranch]
      exact Nat.lt_add_of_pos_right two_pos

/-- A loop that ends does so within one turn for each argument that is left, and the last look. -/
theorem parseLoop_of_ends {branch : Str → Branch} {argv : List Str} {fuel : Nat} {scan scan' : Scan}
    (h : parseLoop branch argv fuel scan = some scan') {turns : Nat}
    (hturns : argv.length - scan.i < turns) : parseLoop branch argv turns scan = some scan' := by
  induction fuel generalizing scan turns with
  | zero => cases h
  | succ fuel ih =>
      obtain ⟨turns, rfl⟩ : ∃ n, turns = n + 1 := Nat.exists_eq_succ_of_ne_zero (by omega)
      cases harg : argv[scan.i]? with
      | none => simpa only [parseLoop, harg] using h
      | some arg =>
          have hi : scan.i < argv.length := (List.getElem?_eq_some_iff.mp harg).1
          have hadvances : scan.i < (turn branch argv arg scan).i := by
            apply turn_advances
            intro set hbranch hlast
            exact not_ends_of_waits (P := fun _ => True) harg hbranch hlast ⟨_, scan', h, trivial⟩
          simp only [parseLoop, harg] at h ⊢
          exact ih h (by omega)

/-- What the command line means to `main` is what the parser leaves, whenever it is done. -/
theorem options_eq_of_ends {argv : List Str} {fuel : Nat} {scan : Scan}
    (h : parseLoop tr181Branch argv fuel ⟨1, .initial, []⟩ = some scan) :
    options argv = some scan.options := by
  have hturns : argv.length - 1 < argv.length + 1 := by omega
  rw [options, parseLoop_of_ends h hturns, Option.map_some]

/-! ### The invocations -/

section Set

variable {σ : Type} (api : Api σ) (sh : Shell) (id : Option Str) (w : World σ)

/-- What a set does to the local store: with the parameter that clears it is a clear. -/
def setCall (key value : Str) : Option Call :=
  if isLocal id then some (if key = tr181ClearParam then .clear value else .set key value) else none

theorem setAttribute_files (key : Str) (type : Char) (value : Str) :
    (setAttribute api sh id w key type value).2.files =
      match setCall id key value with
      | none => w.files
      | some call => (call.run sh.access w.files).2 := by
  by_cases hlocal : isLocal id = true
  · simp only [setAttribute, setCall, hlocal, if_true]
    by_cases hclear : key = tr181ClearParam
    · rw [hclear]
      rfl
    · simp only [hclear, if_false]
      rfl
  · simp only [setAttribute, setCall, hlocal, Bool.false_eq_true, if_false]

end Set


/-- What an invocation does to the local store. -/
def localCall (argv : List Str) : Option Call :=
  match options argv with
  | none => none
  | some o =>
      match o.key, o.mode, o.value with
      | some key, .set, some value => setCall o.id key value
      | _, _, _ => none

section History

variable {σ : Type} (api : Api σ)

/-- An invocation that hangs has done nothing yet. -/
def step (w : World σ) (invocation : List Str × Shell) : World σ :=
  ((main api invocation.2 invocation.1 w).map (·.2)).getD w

def after (history : List (List Str × Shell)) (w : World σ) : World σ := history.foldl (step api) w

def localCalls (history : List (List Str × Shell)) : List (Call × Access) :=
  history.filterMap fun invocation => (localCall invocation.1).map fun call => (call, invocation.2.access)

/-- One invocation changes the local store by its call, and by nothing else. -/
theorem step_files (w : World σ) (argv : List Str) (sh : Shell) :
    (step api w (argv, sh)).files =
      match localCall argv with
      | none => w.files
      | some call => (call.run sh.access w.files).2 := by
  simp only [step, main, localCall]
  cases options argv with
  | none => rfl
  | some o =>
      simp only [Option.map_some, Option.getD_some]
      cases o.key with
      | none => rfl
      | some key =>
          cases o.mode with
          | get => rfl
          | deleteRow => rfl
          | set =>
              cases o.value with
              | none => rfl
              | some value =>
                  exact setAttribute_files api sh o.id w key o.valueType value

theorem after_files (history : List (List Str × Shell)) (w : World σ) :
    (after api history w).files = runCalls w.files (localCalls history) := by
  induction history generalizing w with
  | nil => rfl
  | cons invocation history ih =>
      obtain ⟨argv, sh⟩ := invocation
      have hstep := step_files api w argv sh
      rw [after, List.foldl_cons, ← after, ih, hstep]
      unfold localCalls
      rw [List.filterMap_cons]
      cases localCall argv with
      | none => rfl
      | some call => rfl

/-- A set or a clear writes no other file than that of the store. -/
theorem run_of_ne (env : Access) (files : Files) (call : Call) {path : Str}
    (hne : path ≠ tr181LocalStoreFile) : (call.run env files).2 path = files path := by
  have hwritten : ∀ content, storeWritten files content path = files path := by
    intro content
    cases content with
    | none => rfl
    | some text => exact Function.update_of_ne hne ..
  cases call with
  | set key value =>
      simp only [Call.run, setLocalParam]
      split
      · exact hwritten _
      · rfl
  | clear key =>
      simp only [Call.run, clearLocalParam]
      split
      · exact hwritten _
      · rfl

theorem runCalls_of_ne (files : Files) (calls : List (Call × Access)) {path : Str}
    (hne : path ≠ tr181LocalStoreFile) : runCalls files calls path = files path := by
  induction calls generalizing files with
  | nil => rfl
  | cons call calls ih =>
      have hstep := run_of_ne call.2 files call.1 hne
      have hrest := ih (call.1.run call.2 files).2
      rw [runCalls, List.foldl_cons, ← runCalls]
      exact hrest.trans hstep

theorem defaultsFilename_ne_store (callerId : Str) : defaultsFilename callerId ≠ tr181LocalStoreFile := by
  have hdefaults : rfcdefaultsEtcDir = '/' :: 'e' :: "tc/rfcdefaults/".toList := by decide
  have hstore : tr181LocalStoreFile = '/' :: 'o' :: "pt/secure/RFC/tr181localstore.ini".toList := by
    decide
  rw [defaultsFilename, hstore]
  generalize callerId.take (256 - rfcdefaultsEtcDir.length - 5) = callerId
  rw [hdefaults]
  intro h
  simp only [List.cons_append, List.cons.injEq] at h
  exact absurd h.2.1 (by decide)

end History

/-- A hostif that takes every set and answers no get. -/
def Api.mute : Api Unit := ⟨fun _ _ _ => (.failure, .unwritten), fun _ _ _ _ _ => (.success, ())⟩

def Shell.plain : Shell := ⟨⟨true, true, .same⟩, true, []⟩

def command (args : List String) : List Str × Shell := (("tr181" :: args).map String.toList, .plain)

/-- A local set, and a clear with the same id. -/
def setThenClear : List (List Str × Shell) :=
  [command ["-s", "-n", "localOnly", "-v", "1", "A"], command ["-c", "-n", "localOnly", "A"]]

end RfcMgr.Tr181Utils
