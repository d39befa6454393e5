import RfcMgr.Identity
import RfcMgr.Apply

/-! `ProcessRuntimeFeatureControlReq`: the loop of at most three requests around `PreProcessJsonResponse`
and `ProcessJsonResponse`, and what is stored when it is done. -/

namespace RfcMgr

/-- The text from the first occurrence of `target` on, without it. -/
def afterFirst (text target : Str) : Option Str := (text.dropInfix? target).map (·.2)

/-- The text before the first occurrence of `target`. -/
def beforeFirst (text target : Str) : Option Str := (text.dropInfix? target).map (·.1)

def isBlank (c : Char) : Bool := c == ' ' || c == '\t' || c == '\r'

/-- The value of the hash header: to the first CRLF, failing that to the first LF, trimmed. -/
def configSetHashValue (httpHeader : Str) : Option Str :=
  ((afterFirst httpHeader "configSetHash:".toList).or
    (afterFirst httpHeader "configsethash:".toList)).map fun rest =>
    let line := ((beforeFirst rest "\r\n".toList).or (beforeFirst rest "\n".toList)).getD rest
    (line.dropWhile isBlank).rdropWhile isBlank

def updateHashInDB (env : Env) (configSetHash : Str) (st : St) : St :=
  (st.set env rfcConfigSetHash configSetHash).2.onProc fun p =>
    { p with isRebootRequired :=
      if stringCaseCompare p.bkupHash configSetHash then false else p.isRebootRequired }

def updateTimeInDB (env : Env) (timestampString : Str) (st : St) : St :=
  (st.set env rfcConfigSetTime timestampString).2

def updateHashAndTimeInDB (env : Env) (header : Str) (st : St) : St :=
  let st := match configSetHashValue header with
    | some hash => updateHashInDB env hash st
    | none => st
  updateTimeInDB env env.configSetTime st

def storeXconfEndpointMetadata (env : Env) (st : St) : St :=
  let st := (st.set env xconfSelectorKeyStr st.proc.rfcSelectOpt).2
  let st := (st.set env xconfUrlKeyStr st.proc.xconfServerUrl).2
  st.log (.stored st.proc.rfcSelectOpt st.proc.xconfServerUrl)

def getSettings : Str := "/featureControl/getSettings".toList

/-- The URL at the head of the loop: a bootstrap URL replaces it, unless a local file overrides. -/
def resolveServerUrl (env : Env) (filePresent : Bool) (p : Processor) : Processor :=
  if filePresent && env.isDebugServicesUnlocked then p
  else if p.bootStrapXconfUrl = [] then p
  else { p with xconfServerUrl := p.bootStrapXconfUrl ++ getSettings }

/-- What is stored once `ProcessJsonResponse` has returned. -/
def storeOutcome (env : Env) (header : Str) (rc : ReturnCode) (st : St) : St :=
  storeXconfEndpointMetadata env <|
    match rc with
    | .success => updateHashAndTimeInDB env header st
    | _ => updateTimeInDB env "0".toList (updateHashInDB env "CLEARED".toList st)

/-- The branch `Continue processing RFC response`. -/
def applyResponse (env : Env) (a : Attempt) (st : St) : Exec St (Option ReturnCode) :=
  (processJsonResponse env a.body st).bind fun rc st =>
    .ok (some (if rc = .success then .success else .failure)) (storeOutcome env a.header rc st)

/-- What follows a download that returned `SUCCESS`. -/
def handleResponse (env : Env) (a : Attempt) (st : St) : Exec St (Option ReturnCode) :=
  match preProcessJsonResponse env a.body st.proc with
  | none => .crash st
  | some p =>
      let st := { st with proc := p, events := st.events ++ [.preProcessed a.body st.proc p] }
      if p.rfcState = .redo then .ok none st
      else if p.rfcState = .redoWithValidData then
        .ok none (st.onProc fun p => { p with rfcState := .init })
      else applyResponse env a st

/-- One pass of the loop; `some` is a `break` with the result. -/
def requestPass (env : Env) (attempts : Nat → Attempt) (retries : Nat) (st : St) :
    Exec St (Option ReturnCode) :=
  let a := attempts retries
  let st := st.onProc (resolveServerUrl env a.filePresent)
  let url := createXconfHTTPUrl env st.proc
  if a.dwnLocAllocated = false ∨ a.headerDwnLocAllocated = false then .ok (some .failure) st
  else
    match downloadRuntimeFeatutres env true a.toExchange url st with
    | (.success, st) => handleResponse env a st
    | (.noRfcUpdateRequired, st) => .ok (some .success) st
    | (.failure, st) => .ok none st

/-- `RETRY_COUNT`. -/
def retryCount : Nat := 3

/-- `rfcSelectOpt` is chosen on entry. -/
def chooseSelectOpt (p : Processor) : Processor :=
  { p with rfcSelectOpt := if p.rfcState = .local then "local".toList else "prod".toList }

def processRuntimeFeatureControlReq (env : Env) (attempts : Nat → Attempt) (st : St) :
    Exec St ReturnCode :=
  let st := st.onProc chooseSelectOpt
  if env.directBlocked then .ok .failure st
  else Exec.retry (requestPass env attempts) .failure retryCount 0 st

end RfcMgr
