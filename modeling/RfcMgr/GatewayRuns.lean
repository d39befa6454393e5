import RfcMgr.Gateway

/-! What a gateway sends to its server over any number of starts and reboots. The hash and the time of a
request are those of the outcomes since the last reboot, so that a device that comes up asks for
everything, and a 304 is an answer to a hash that a processed response has named. -/

namespace RfcMgr.Gateway

/-! ### What a start stores and sends -/

/-- What an outcome leaves in the file of the hash, when it writes there. -/
def Outcome.hash (o : Outcome) : Option Str :=
  if o.hashOpens then
    if o.rc = .success then configSetHashValue o.header else some "CLEARED".toList
  else none

def Outcome.time (o : Outcome) : Option Str :=
  if o.timeOpens then some (if o.rc = .success then o.now else "0".toList) else none

/-- The last outcome that wrote the file says what is in it. -/
def lastHash (outcomes : List Outcome) : Option Str := outcomes.reverse.findSome? Outcome.hash

def lastTime (outcomes : List Outcome) : Option Str := outcomes.reverse.findSome? Outcome.time

def outcomesOf (events : List Event) : List Outcome :=
  events.filterMap fun
    | .processed o => some o
    | _ => none

def storedHash (hashValue : Option Str) : Str := (hashValue.map firstLineOf).getD "UPGRADE_HASH".toList

def storedTime (timeValue : Option Str) : Str := (timeValue.map firstLineOf).getD "0".toList

/-- The hash and the time of a request: everything is asked for, or they are the stored ones. -/
inductive Sent (hashValue timeValue : Option Str) : Str → Str → Prop where
  | upgrade : Sent hashValue timeValue "UPGRADE_HASH".toList "0".toList
  | override : Sent hashValue timeValue "OVERRIDE_HASH".toList "0".toList
  | unknown : Sent hashValue timeValue "OVERRIDE_HASH".toList (storedTime timeValue)
  | stored : Sent hashValue timeValue (storedHash hashValue) (storedTime timeValue)

/-- What has happened in a run that has not processed a response. -/
structure Asking (before : Files) (st : St) : Prop where
  files : st.files = before
  sent : ∀ url hash time, .request url hash time ∈ st.events →
    Sent before.hashValue before.timeValue hash time
  unprocessed : ∀ o, .processed o ∉ st.events

/-- A start ends without a response that it processes, and then with success behind a 304 only; or it
stores what came of the one that it has processed. -/
inductive Ended (before : Files) (rc : ReturnCode) (st : St) : Prop where
  | asked (hasking : Asking before st)
      (hunchanged : rc = .success → ∃ url hash time curlRetCode,
        [.request url hash time, .response curlRetCode 304] <:+ st.events)
  | processed (s : St) (o : Outcome) (hasking : Asking before s)
      (hevents : st.events = s.events ++ [.processed o])
      (hhash : st.files.hashValue = o.hash.or before.hashValue)
      (htime : st.files.timeValue = o.time.or before.timeValue)
      (hrc : rc = .success ↔ o.rc = .success)

/-- The stored hash and time are looked up without a trace. -/
theorem storedHashAndTime_spec (env : Env) (st : St) :
    (storedHashAndTime env st).2.files = st.files ∧ (storedHashAndTime env st).2.events = st.events ∧
    ((storedHashAndTime env st).1 = ("UPGRADE_HASH".toList, "0".toList) ∨
      (storedHashAndTime env st).1 = ("OVERRIDE_HASH".toList, "0".toList) ∨
      (storedHashAndTime env st).1 = (storedHash st.files.hashValue, storedTime st.files.timeValue)) := by
  simp only [storedHashAndTime]
  split
  · split
    · split
      · exact ⟨rfl, rfl, Or.inr (Or.inr rfl)⟩
      · exact ⟨rfl, rfl, Or.inr (Or.inl rfl)⟩
    · exact ⟨rfl, rfl, Or.inr (Or.inr rfl)⟩
  · exact ⟨rfl, rfl, Or.inl rfl⟩

/-- An identity that is unknown overrides the hash. -/
theorem getStoredHashAndTime_spec (env : Env) (st : St) :
    (getStoredHashAndTime env st).2.files = st.files ∧
    (getStoredHashAndTime env st).2.events = st.events ∧
    Sent st.files.hashValue st.files.timeValue (getStoredHashAndTime env st).1.1
      (getStoredHashAndTime env st).1.2 := by
  obtain ⟨hfiles, hevents, hpair⟩ := storedHashAndTime_spec env st
  simp only [getStoredHashAndTime]
  generalize storedHashAndTime env st = looked at hfiles hevents hpair ⊢
  obtain ⟨⟨hash, time⟩, s⟩ := looked
  simp only [Prod.mk.injEq] at hpair
  split
  · refine ⟨hfiles, hevents, ?_⟩
    obtain ⟨-, rfl⟩ | ⟨-, rfl⟩ | ⟨-, rfl⟩ := hpair
    · exact .override
    · exact .override
    · exact .unknown
  · refine ⟨hfiles, hevents, ?_⟩
    obtain ⟨rfl, rfl⟩ | ⟨rfl, rfl⟩ | ⟨rfl, rfl⟩ := hpair
    · exact .upgrade
    · exact .override
    · exact .stored

/-- What a request and its reply add to a run. -/
theorem exchanged_spec (env : Env) (x : Exchange) (url : Str) (st : St) :
    (exchanged env x url st).files = st.files ∧ ∃ hash time,
      (exchanged env x url st).events = st.events ++
        [.request (url.take 1023) hash time, .response x.curlRetCode x.httpCode] ∧
      Sent st.files.hashValue st.files.timeValue hash time := by
  obtain ⟨hfiles, hevents, hsent⟩ := getStoredHashAndTime_spec env st
  refine ⟨hfiles, _, _, ?_, hsent⟩
  simp only [exchanged, St.log, hevents, List.append_assoc, List.singleton_append]

theorem replyCode_unchanged {x : Exchange} (h : replyCode x = .noRfcUpdateRequired) :
    x.httpCode = 304 := by
  rw [replyCode] at h
  split at h
  · cases h
  · split at h
    next hcode => exact hcode
    next =>
      split at h
      · cases h
      · cases h

/-! ### One pass -/

theorem Asking.onProc {before : Files} {st : St} (h : Asking before st) (f : Processor → Processor) :
    Asking before (st.onProc f) := ⟨h.files, h.sent, h.unprocessed⟩

theorem Asking.exchanged {before : Files} {st : St} (h : Asking before st) (env : Env) (x : Exchange)
    (url : Str) : Asking before (exchanged env x url st) := by
  obtain ⟨hfiles, hash, time, hevents, hsent⟩ := exchanged_spec env x url st
  rw [h.files] at hfiles hsent
  constructor
  · exact hfiles
  · intro url' hash' time' hmem
    rw [hevents] at hmem
    rcases List.mem_append.mp hmem with hmem | hmem
    · exact h.sent url' hash' time' hmem
    · simp only [List.mem_cons, Event.request.injEq, List.not_mem_nil, or_false, reduceCtorEq] at hmem
      obtain ⟨-, rfl, rfl⟩ := hmem
      exact hsent
  · intro o hmem
    rw [hevents] at hmem
    rcases List.mem_append.mp hmem with hmem | hmem
    · exact h.unprocessed o hmem
    · simp at hmem

/-- `t` has the files and the trace of `s`. -/
def Quiet (s t : St) : Prop := t.files = s.files ∧ t.events = s.events

theorem Quiet.trans {s t u : St} (hst : Quiet s t) (htu : Quiet t u) : Quiet s u :=
  ⟨htu.1.trans hst.1, htu.2.trans hst.2⟩

theorem Asking.quiet {before : Files} {s t : St} (h : Asking before s) (hquiet : Quiet s t) :
    Asking before t := by
  obtain ⟨hfiles, hevents⟩ := hquiet
  constructor
  · exact hfiles.trans h.files
  · rw [hevents]
    exact h.sent
  · rw [hevents]
    exact h.unprocessed

/-- The calls of rbus leave no trace here. -/
theorem quiet_onBus {α : Type} (st : St) (f : Rdkb.St → Exec Rdkb.St α) :
    Quiet st (st.onBus f).state := by
  unfold St.onBus
  split
  · exact ⟨rfl, rfl⟩
  · exact ⟨rfl, rfl⟩

theorem quiet_storeXconfEndpointMetadata (env : Env) (st : St) :
    Quiet st (storeXconfEndpointMetadata env st).state := by
  apply Exec.state_bind (P := Quiet st)
  · exact quiet_onBus st _
  intro _ s _ hs
  apply Exec.state_bind (P := Quiet st)
  · exact hs.trans (quiet_onBus s _)
  · intro _ t _ ht
    exact ht

section Store

variable (opens : Str → Bool) (text : Str) (h : Rdkb.HashFiles)

theorem updateHashInDB_hashValue : (Rdkb.updateHashInDB opens text h).hashValue =
    (if opens "/tmp/RFC/.hashValue".toList then some text else none).or h.hashValue := by
  simp only [Rdkb.updateHashInDB]
  cases opens "/tmp/RFC/.hashValue".toList with
  | true => rfl
  | false => rfl

theorem updateTimeInDB_timeValue : (Rdkb.updateTimeInDB opens text h).timeValue =
    (if opens "/tmp/RFC/.timeValue".toList then some text else none).or h.timeValue := by
  simp only [Rdkb.updateTimeInDB]
  cases opens "/tmp/RFC/.timeValue".toList with
  | true => rfl
  | false => rfl

/-- A header without a hash keeps the file. -/
theorem updateHashAndTimeInDB_hashValue (header : Str) :
    (Rdkb.updateHashAndTimeInDB opens text header h).hashValue =
      (if opens "/tmp/RFC/.hashValue".toList then configSetHashValue header else none).or h.hashValue := by
  rw [Rdkb.updateHashAndTimeInDB]
  cases configSetHashValue header with
  | none => exact (congrArg (Option.or · h.hashValue) (ite_self none)).symm
  | some hash => exact updateHashInDB_hashValue opens hash h

theorem updateHashAndTimeInDB_timeValue (header : Str) :
    (Rdkb.updateHashAndTimeInDB opens text header h).timeValue =
      (if opens "/tmp/RFC/.timeValue".toList then some text else none).or h.timeValue := by
  rw [Rdkb.updateHashAndTimeInDB]
  cases configSetHashValue header with
  | none => exact updateTimeInDB_timeValue opens text h
  | some hash => exact updateTimeInDB_timeValue opens text _

end Store

/-- The two files after an outcome. -/
theorem storeOutcome_spec (env : Env) (a : Attempt) (rc : ReturnCode) (st : St) :
    (storeOutcome env a rc st).files.hashValue = (outcomeOf env a rc).hash.or st.files.hashValue ∧
    (storeOutcome env a rc st).files.timeValue = (outcomeOf env a rc).time.or st.files.timeValue ∧
    (storeOutcome env a rc st).events = st.events ++ [.processed (outcomeOf env a rc)] := by
  by_cases hrc : rc = .success
  · subst hrc
    refine ⟨?_, ?_, rfl⟩
    · exact updateHashAndTimeInDB_hashValue env.opens env.configSetTime _ a.header
    · exact updateHashAndTimeInDB_timeValue env.opens env.configSetTime _ a.header
  · have hfailed : storeOutcome env a rc st =
        (updateTimeInDB env "0".toList (updateHashInDB env "CLEARED".toList st)).log
          (.processed (outcomeOf env a rc)) := by
      cases rc with
      | success => exact absurd rfl hrc
      | failure => rfl
      | noRfcUpdateRequired => rfl
    rw [hfailed, Outcome.hash, Outcome.time, outcomeOf, if_neg hrc, if_neg hrc]
    refine ⟨?_, ?_, rfl⟩
    · exact updateHashInDB_hashValue env.opens "CLEARED".toList _
    · exact updateTimeInDB_timeValue env.opens "0".toList _

/-- Every request carries what is sent for these files. -/
def Sends (before : Files) (st : St) : Prop :=
  ∀ url hash time, .request url hash time ∈ st.events →
    Sent before.hashValue before.timeValue hash time

theorem Sends.processed {before : Files} {s t : St} {o : Outcome} (h : Sends before s)
    (hevents : t.events = s.events ++ [.processed o]) : Sends before t := by
  intro url hash time hmem
  rw [hevents] at hmem
  rcases List.mem_append.mp hmem with hmem | hmem
  · exact h url hash time hmem
  · simp at hmem

theorem lastHash_append (earlier later : List Outcome) :
    lastHash (earlier ++ later) = (lastHash later).or (lastHash earlier) := by
  rw [lastHash, List.reverse_append, List.findSome?_append]
  rfl

theorem lastTime_append (earlier later : List Outcome) :
    lastTime (earlier ++ later) = (lastTime later).or (lastTime earlier) := by
  rw [lastTime, List.reverse_append, List.findSome?_append]
  rfl

theorem Asking.outcomesOf_eq_nil {before : Files} {st : St} (h : Asking before st) :
    outcomesOf st.events = [] := by
  apply List.filterMap_eq_nil_iff.mpr
  intro e he
  cases e with
  | request => rfl
  | response => rfl
  | processed o => exact absurd he (h.unprocessed o)

/-- What a run has sent and stored, wherever it ends. -/
structure Left (before : Files) (st : St) : Prop where
  sends : Sends before st
  hash : st.files.hashValue = (lastHash (outcomesOf st.events)).or before.hashValue
  time : st.files.timeValue = (lastTime (outcomesOf st.events)).or before.timeValue

theorem Asking.left {before : Files} {s t : St} (h : Asking before s) (hevents : t.events = s.events)
    (hhash : t.files.hashValue = before.hashValue) (htime : t.files.timeValue = before.timeValue) :
    Left before t := by
  have hnone : outcomesOf t.events = [] := by
    rw [hevents]
    exact h.outcomesOf_eq_nil
  constructor
  · rw [Sends, hevents]
    exact h.sent
  · rw [hnone]
    exact hhash
  · rw [hnone]
    exact htime

theorem Asking.left_processed {before : Files} {s t : St} {o : Outcome} (h : Asking before s)
    (hevents : t.events = s.events ++ [.processed o])
    (hhash : t.files.hashValue = o.hash.or before.hashValue)
    (htime : t.files.timeValue = o.time.or before.timeValue) : Left before t := by
  have hone : outcomesOf t.events = [o] := by
    rw [hevents, outcomesOf, List.filterMap_append]
    exact congrArg (· ++ [o]) h.outcomesOf_eq_nil
  constructor
  · exact Sends.processed h.sent hevents
  · rw [hone, hhash, lastHash, List.reverse_singleton, List.findSome?_singleton]
  · rw [hone, htime, lastTime, List.reverse_singleton, List.findSome?_singleton]

theorem Ended.left {before : Files} {rc : ReturnCode} {st : St} (h : Ended before rc st) :
    Left before st := by
  cases h with
  | asked hasking =>
      exact hasking.left rfl (congrArg Files.hashValue hasking.files)
        (congrArg Files.timeValue hasking.files)
  | processed s o hasking hevents hhash htime => exact hasking.left_processed hevents hhash htime

/-- How one pass goes: round again, to the end of the run, or down. -/
inductive PassEnd (before : Files) : Exec St (Option ReturnCode) → Prop where
  | again (st : St) (hasking : Asking before st) : PassEnd before (.ok none st)
  | ended (rc : ReturnCode) (st : St) (hended : Ended before rc st) : PassEnd before (.ok (some rc) st)
  | crashed (st : St) (hleft : Left before st) : PassEnd before (.crash st)

/-- `ProcessJsonResponseB` writes the version and neither of the two files. -/
theorem processJsonResponseB_spec (env : Env) (body : Body) (st : St) :
    (processJsonResponseB env body st).state.events = st.events ∧
    (processJsonResponseB env body st).state.files.hashValue = st.files.hashValue ∧
    (processJsonResponseB env body st).state.files.timeValue = st.files.timeValue := by
  obtain ⟨hfiles, hevents⟩ := quiet_onBus st (Rdkb.processJsonResponseB env.bus body)
  have hhash := congrArg Files.hashValue hfiles
  have htime := congrArg Files.timeValue hfiles
  rw [processJsonResponseB]
  cases hrun : st.onBus (Rdkb.processJsonResponseB env.bus body) with
  | crash s =>
      rw [hrun] at hevents hhash htime
      exact ⟨hevents, hhash, htime⟩
  | ok rc s =>
      rw [hrun] at hevents hhash htime
      rw [Exec.bind_ok, Exec.state_ok, writeVersion]
      split
      · exact ⟨hevents, hhash, htime⟩
      · exact ⟨hevents, hhash, htime⟩

theorem applyResponse_end {before : Files} {st : St} (h : Asking before st) (env : Env) (a : Attempt) :
    PassEnd before (applyResponse env a st) := by
  obtain ⟨hevents, hhash, htime⟩ := processJsonResponseB_spec env a.body st
  rw [applyResponse]
  cases hrun : processJsonResponseB env a.body st with
  | crash s =>
      rw [hrun, Exec.state_crash] at hevents hhash htime
      rw [h.files] at hhash htime
      exact .crashed s (h.left hevents hhash htime)
  | ok rc s =>
      rw [hrun, Exec.state_ok] at hevents hhash htime
      obtain ⟨hstoredHash, hstoredTime, hstored⟩ := storeOutcome_spec env a rc s
      rw [hhash, h.files] at hstoredHash
      rw [htime, h.files] at hstoredTime
      rw [hevents] at hstored
      rw [Exec.bind_ok]
      generalize storeOutcome env a rc s = t at hstoredHash hstoredTime hstored
      have hquiet := quiet_storeXconfEndpointMetadata env t
      cases hmeta : storeXconfEndpointMetadata env t with
      | crash u =>
          rw [hmeta] at hquiet
          refine .crashed u (h.left_processed (hquiet.2.trans hstored) ?_ ?_)
          · exact (congrArg Files.hashValue hquiet.1).trans hstoredHash
          · exact (congrArg Files.timeValue hquiet.1).trans hstoredTime
      | ok _ u =>
          rw [hmeta] at hquiet
          refine .ended _ u (.processed st _ h (hquiet.2.trans hstored) ?_ ?_ ?_)
          · exact (congrArg Files.hashValue hquiet.1).trans hstoredHash
          · exact (congrArg Files.timeValue hquiet.1).trans hstoredTime
          · by_cases hrc : rc = .success
            · exact iff_of_true (if_pos hrc) hrc
            · rw [if_neg hrc]
              exact iff_of_false (by decide) hrc

theorem handleResponse_end {before : Files} {st : St} (h : Asking before st) (env : Env) (a : Attempt) :
    PassEnd before (handleResponse env a st) := by
  rw [handleResponse]
  cases preProcessJsonResponse env.toEnv a.body st.proc with
  | none =>
      exact .crashed st (h.left rfl (congrArg Files.hashValue h.files) (congrArg Files.timeValue h.files))
  | some p =>
      simp only
      split
      · exact .again _ (h.onProc _)
      · split
        · exact .again _ ((h.onProc _).onProc _)
        · exact applyResponse_end (h.onProc _) env a

theorem requestPass_end {before : Files} {st : St} (h : Asking before st) (env : Env)
    (attempts : Nat → Attempt) (retries : Nat) : PassEnd before (requestPass env attempts retries st) := by
  have hresolved := h.onProc (resolveServerUrl env.toEnv (attempts retries).filePresent)
  simp only [requestPass]
  generalize st.onProc (resolveServerUrl env.toEnv (attempts retries).filePresent) = s at hresolved ⊢
  split
  · exact .ended _ _ (.asked hresolved fun hrc => nomatch hrc)
  · rw [downloadRuntimeFeatutres]
    cases (attempts retries).hashParamAllocated with
    | false => exact .again s hresolved
    | true =>
        have hasked := hresolved.exchanged env (attempts retries).toExchange (createXconfHTTPUrl env s)
        rw [if_pos rfl]
        cases hreply : replyCode (attempts retries).toExchange with
        | success => exact handleResponse_end hasked env _
        | failure => exact .again _ hasked
        | noRfcUpdateRequired =>
            obtain ⟨-, hash, time, hevents, -⟩ :=
              exchanged_spec env (attempts retries).toExchange (createXconfHTTPUrl env s) s
            rw [replyCode_unchanged hreply] at hevents
            refine .ended _ _ (.asked hasked fun _ => ⟨(createXconfHTTPUrl env s).take 1023, hash, time,
              (attempts retries).curlRetCode, ?_⟩)
            rw [hevents]
            exact List.suffix_append _ _

/-! ### One start -/

/-- How a start goes. -/
inductive RunEnd (before : Files) : Exec St ReturnCode → Prop where
  | ended (rc : ReturnCode) (st : St) (hended : Ended before rc st) : RunEnd before (.ok rc st)
  | crashed (st : St) (hleft : Left before st) : RunEnd before (.crash st)

theorem RunEnd.left {before : Files} {out : Exec St ReturnCode} (h : RunEnd before out) :
    Left before out.state := by
  cases h with
  | ended rc st hended => exact hended.left
  | crashed st hleft => exact hleft

theorem request_end {before : Files} {st : St} (h : Asking before st) (env : Env)
    (attempts : Nat → Attempt) : RunEnd before (processRuntimeFeatureControlReq env attempts st) := by
  have hstart := h.onProc chooseSelectOpt
  obtain ⟨j, t, hpasses, hend⟩ := Exec.retry_spec (requestPass env attempts) .failure retryCount 0
    (st.onProc chooseSelectOpt)
  have hasking : Asking before t := by
    apply hpasses.inv (P := fun _ s => Asking before s) _ hstart
    intro k s s' _ hs hpass
    have hgoes := requestPass_end hs env attempts k
    rw [hpass] at hgoes
    cases hgoes with
    | again _ hasking => exact hasking
  rw [processRuntimeFeatureControlReq]
  generalize Exec.retry (requestPass env attempts) .failure retryCount 0 (st.onProc chooseSelectOpt) = out
    at hend ⊢
  cases hend with
  | exhausted => exact .ended _ _ (.asked hasking fun hrc => nomatch hrc)
  | broke _ hpass =>
      have hgoes := requestPass_end hasking env attempts j
      rw [hpass] at hgoes
      cases hgoes with
      | ended _ _ hended => exact .ended _ _ hended
  | crashed _ hpass =>
      have hgoes := requestPass_end hasking env attempts j
      rw [hpass] at hgoes
      cases hgoes with
      | crashed _ hleft => exact .crashed _ hleft

section Start

variable (pl : Platform) (env : Env) (st : St)

theorem quiet_read (key : Str) (datasize : Nat) : Quiet st (st.read env key datasize).2 := ⟨rfl, rfl⟩

theorem quiet_getBootstrapXconfUrl (retries : Nat) : Quiet st (getBootstrapXconfUrl env retries st) := by
  induction retries generalizing st with
  | zero => exact ⟨rfl, rfl⟩
  | succ retries ih =>
      have hread := quiet_read env st Rdkb.bootstrapXconfUrlKeyStr 1024
      rw [getBootstrapXconfUrl]
      split
      next s hvalue =>
        rw [hvalue] at hread
        exact hread.trans (ih s)
      next url s hvalue =>
        rw [hvalue] at hread
        exact hread

/-- A parameter that is read into a field, or not. -/
theorem quiet_readInto (key : Str) (datasize : Nat) {f : Str → St → St}
    (hf : ∀ value s, Quiet s (f value s)) :
    Quiet st (match st.read env key datasize with
      | (none, s) => s
      | (some value, s) => f value s) := by
  have hread := quiet_read env st key datasize
  split
  next hvalue =>
    rw [hvalue] at hread
    exact hread
  next value s hvalue =>
    rw [hvalue] at hread
    exact hread.trans (hf value s)

theorem quiet_getRFCPartnerID : Quiet st (getRFCPartnerID pl env st) := by
  rw [getRFCPartnerID]
  split
  · exact quiet_readInto env st rfcPartnerNameKeyStr 1024 fun _ _ => ⟨rfl, rfl⟩
  · exact ⟨rfl, rfl⟩

theorem quiet_getLastProcessedFirmware : Quiet st (getLastProcessedFirmware st) := by
  rw [getLastProcessedFirmware]
  split
  · exact ⟨rfl, rfl⟩
  · exact ⟨rfl, rfl⟩

theorem quiet_getAccountID : Quiet st (getAccountID env st) :=
  quiet_readInto env st rfcAccountIdKeyStr 1024 fun _ _ => ⟨rfl, rfl⟩

theorem quiet_getOsClass : Quiet st (getOsClass pl env st) := by
  rw [getOsClass]
  split
  · exact quiet_readInto env st rfcOsclassKeyStr 100 fun _ _ => ⟨rfl, rfl⟩
  · exact ⟨rfl, rfl⟩

theorem quiet_getDeviceTypeRFC : Quiet st (getDeviceTypeRFC env st).2 := by
  have hread := quiet_read env st rfcDevicetype 512
  unfold getDeviceTypeRFC
  split
  next hvalue =>
    rw [hvalue] at hread
    exact hread
  next hvalue =>
    rw [hvalue] at hread
    exact hread

theorem quiet_isSecureDbgSrvUnlocked : Quiet st (isSecureDbgSrvUnlocked pl env st).2 := by
  have hservices : Quiet st (isDebugServicesEnabled env st).2 := ⟨rfl, rfl⟩
  have hboth := hservices.trans (quiet_getDeviceTypeRFC env (isDebugServicesEnabled env st).2)
  unfold isSecureDbgSrvUnlocked
  split
  · exact ⟨rfl, rfl⟩
  · simp only
    split
    · exact hboth
    · exact hboth
  · exact ⟨rfl, rfl⟩
  · exact ⟨rfl, rfl⟩
  · exact ⟨rfl, rfl⟩

theorem quiet_chooseRfcFile : Quiet st (chooseRfcFile pl env st).2 := by
  have hunlocked := quiet_isSecureDbgSrvUnlocked pl env st
  simp only [chooseRfcFile]
  split
  · exact hunlocked
  · exact ⟨rfl, rfl⟩

theorem quiet_getServURL (file : Option Str) : Quiet st (getServURL pl file st).2 := by
  unfold getServURL
  split
  · exact ⟨rfl, rfl⟩
  · exact ⟨rfl, rfl⟩

theorem quiet_lookUpIdentity : Quiet st (lookUpIdentity pl env st) := by
  have hfirmware := quiet_getLastProcessedFirmware (st.onProc (getExperience pl))
  have haccount := hfirmware.trans (quiet_getAccountID env _)
  exact haccount.trans (quiet_getOsClass pl env _)

theorem quiet_initialised : Quiet st (initializeRuntimeFeatureControlProcessor pl env st).2 := by
  have hurl := quiet_getBootstrapXconfUrl env st bootstrapRetries
  rw [initializeRuntimeFeatureControlProcessor]
  generalize getBootstrapXconfUrl env bootstrapRetries st = s at hurl ⊢
  have hhandler : Quiet s (initializeXconfHandler pl s) := ⟨rfl, rfl⟩
  have hpartner := hurl.trans (hhandler.trans (quiet_getRFCPartnerID pl env _))
  have hfile := hpartner.trans (quiet_chooseRfcFile pl env _)
  generalize chooseRfcFile pl env _ = chosen at hfile ⊢
  obtain ⟨file, t⟩ := chosen
  have hserver := hfile.trans (quiet_getServURL pl t file)
  simp only
  split
  next u hfound =>
    rw [hfound] at hserver
    exact hserver.trans (quiet_lookUpIdentity pl env u)
  next rc u _ hfound =>
    rw [hfound] at hserver
    exact hserver

end Start

theorem asking_constructed (before : Files) : Asking before (.constructed before) :=
  ⟨rfl, fun _ _ _ hmem => absurd hmem List.not_mem_nil, fun _ => List.not_mem_nil⟩

/-- **What one start sends and stores.** -/
theorem Boot.run_end (b : Boot) (before : Files) : RunEnd before (b.run before) := by
  have hstart := (asking_constructed before).quiet
    (quiet_initialised b.platform b.env (.constructed before))
  rw [Boot.run]
  split
  next st hinit =>
    rw [hinit] at hstart
    exact request_end (hstart.quiet (quiet_isSecureDbgSrvUnlocked b.platform b.env st)) _ b.attempts
  next rc st hfailed hinit =>
    rw [hinit] at hstart
    exact .ended rc st (.asked hstart fun hrc => absurd hrc hfailed)

/-! ### Starts and reboots -/

/-- A device, and what has come of the responses it has processed since it was booted. -/
structure Device where
  files : Files
  outcomes : List Outcome

/-- A device that comes up, with the version file that is there. -/
def Device.booted (version : Option Str) : Device := ⟨⟨none, none, version⟩, []⟩

inductive Happening where
  | start (b : Boot)
  | reboot

/-- What a start that crashes has written stays. -/
def step (d : Device) : Happening → Device
  | .start b => ⟨(b.run d.files).state.files, d.outcomes ++ outcomesOf (b.run d.files).state.events⟩
  | .reboot => .booted d.files.version

def after (whats : List Happening) (d : Device) : Device := whats.foldl step d

/-- The two files are those of the outcomes. -/
structure Kept (d : Device) : Prop where
  hash : d.files.hashValue = lastHash d.outcomes
  time : d.files.timeValue = lastTime d.outcomes

theorem kept_booted (version : Option Str) : Kept (.booted version) := ⟨rfl, rfl⟩

theorem Kept.step {d : Device} (h : Kept d) (what : Happening) : Kept (step d what) := by
  cases what with
  | reboot => exact kept_booted d.files.version
  | start b =>
      have hleft := (b.run_end d.files).left
      constructor
      · calc (b.run d.files).state.files.hashValue
            = (lastHash (outcomesOf (b.run d.files).state.events)).or d.files.hashValue := hleft.hash
          _ = (lastHash (outcomesOf (b.run d.files).state.events)).or (lastHash d.outcomes) := by
              rw [h.hash]
          _ = lastHash (d.outcomes ++ outcomesOf (b.run d.files).state.events) :=
              (lastHash_append _ _).symm
      · calc (b.run d.files).state.files.timeValue
            = (lastTime (outcomesOf (b.run d.files).state.events)).or d.files.timeValue := hleft.time
          _ = (lastTime (outcomesOf (b.run d.files).state.events)).or (lastTime d.outcomes) := by
              rw [h.time]
          _ = lastTime (d.outcomes ++ outcomesOf (b.run d.files).state.events) :=
              (lastTime_append _ _).symm

/-- **The two files after any starts and reboots.** -/
theorem kept_after (whats : List Happening) {d : Device} (h : Kept d) : Kept (after whats d) := by
  induction whats generalizing d with
  | nil => exact h
  | cons what whats ih => exact ih (h.step what)

/-- **What a gateway asks for**, after any starts, with any outcomes and crashes, and any reboots:
everything, or what has come since the hash and the time of the outcomes since the last reboot. -/
theorem requests_of_start (version : Option Str) (whats : List Happening) (b : Boot)
    {url hash time : Str}
    (hmem : .request url hash time ∈ (b.run (after whats (.booted version)).files).state.events) :
    Sent (lastHash (after whats (.booted version)).outcomes)
      (lastTime (after whats (.booted version)).outcomes) hash time := by
  obtain ⟨hhash, htime⟩ := kept_after whats (kept_booted version)
  have hsends := (b.run_end (after whats (.booted version)).files).left.sends url hash time hmem
  rwa [hhash, htime] at hsends

/-! ### An answer of 304 -/

/-- The server answers 304 to no other hash than that of its current configuration. -/
def NotModifiedOnly (events : List Event) (current : Str) : Prop :=
  ∀ url hash time curlRetCode, [.request url hash time, .response curlRetCode 304] <:+: events →
    hash = current

/-- The hashes that no configuration has. -/
def markerHashes : List Str := ["UPGRADE_HASH".toList, "OVERRIDE_HASH".toList, "CLEARED".toList]

/-- A response that was processed with success named the hash, and no outcome behind it wrote one. -/
def Processed (outcomes : List Outcome) (current : Str) : Prop :=
  ∃ earlier o later hash, outcomes = earlier ++ o :: later ∧ o.rc = .success ∧
    configSetHashValue o.header = some hash ∧ firstLineOf hash = current ∧ ∀ o' ∈ later, o'.hash = none

theorem stored_of_sent {hashValue timeValue : Option Str} {hash time : Str}
    (h : Sent hashValue timeValue hash time) (hmarker : hash ∉ markerHashes) :
    ∃ text, hashValue = some text ∧ firstLineOf text = hash := by
  cases h with
  | upgrade => exact absurd (by simp [markerHashes]) hmarker
  | override => exact absurd (by simp [markerHashes]) hmarker
  | unknown => exact absurd (by simp [markerHashes]) hmarker
  | stored =>
      cases hashValue with
      | none => exact absurd (by simp [markerHashes, storedHash]) hmarker
      | some text => exact ⟨text, rfl, rfl⟩

/-- The file holds what the last outcome that wrote it has named. -/
theorem processed_of_lastHash {outcomes : List Outcome} {text : Str} (h : lastHash outcomes = some text)
    (hmarker : firstLineOf text ∉ markerHashes) : Processed outcomes (firstLineOf text) := by
  obtain ⟨later, o, earlier, hreverse, hhash, hlater⟩ := List.findSome?_eq_some_iff.mp h
  have houtcomes : outcomes = earlier.reverse ++ o :: later.reverse := by
    rw [← List.reverse_reverse outcomes, hreverse, List.reverse_append, List.reverse_cons,
      List.append_assoc, List.singleton_append]
  rw [Outcome.hash] at hhash
  split at hhash
  · split at hhash
    next hrc =>
      refine ⟨earlier.reverse, o, later.reverse, text, houtcomes, hrc, hhash, rfl, ?_⟩
      intro o' ho'
      exact hlater o' (List.mem_reverse.mp ho')
    next =>
      obtain rfl := Option.some.inj hhash
      exact absurd (by decide) hmarker
  · cases hhash

/-- **304 is safe on a gateway**: after any starts and reboots, a start that ends with success has
processed a response itself, or the last outcome since the reboot that named a hash is a response of the
configuration that the server has. -/
theorem processed_of_success (version : Option Str) (whats : List Happening) {b : Boot} {current : Str}
    (hserver : NotModifiedOnly (b.run (after whats (.booted version)).files).state.events current)
    (hcurrent : current ∉ markerHashes)
    (hsuccess : (b.run (after whats (.booted version)).files).value? = some .success) :
    (∃ o, .processed o ∈ (b.run (after whats (.booted version)).files).state.events ∧
      o.rc = .success) ∨ Processed (after whats (.booted version)).outcomes current := by
  obtain ⟨hhash, -⟩ := kept_after whats (kept_booted version)
  generalize after whats (.booted version) = d at hhash hserver hsuccess ⊢
  have hend := b.run_end d.files
  generalize b.run d.files = out at hend hserver hsuccess ⊢
  cases hend with
  | crashed st => cases hsuccess
  | ended rc st hended =>
      obtain rfl := Option.some.inj hsuccess
      cases hended with
      | processed s o hasking hevents _ _ hrc =>
          refine Or.inl ⟨o, ?_, hrc.mp rfl⟩
          rw [Exec.state_ok, hevents]
          exact List.mem_append_right _ List.mem_cons_self
      | asked hasking hunchanged =>
          obtain ⟨url, hash, time, curlRetCode, hlast⟩ := hunchanged rfl
          obtain rfl := hserver url hash time curlRetCode hlast.isInfix
          have hsent := hasking.sent url hash time (hlast.subset List.mem_cons_self)
          obtain ⟨text, htext, rfl⟩ := stored_of_sent hsent hcurrent
          exact Or.inr (processed_of_lastHash (hhash.symm.trans htext) hcurrent)

/-! A start that processes a response, and one that is told that nothing has changed. -/

def plainBus : Rdkb.Env where
  rbusOpen _ := true
  rbusGet _ key := some (.string (some (if key = xconfSelectorKeyStr then "prod".toList else "A1".toList)))
  rbusSet _ _ _ := true
  bsStore _ := none
  stof _ := none
  stod _ := none
  ulongWidth := 64
  validationDwnLocAllocated := true
  validationHeaderAllocated := true
  validation _ := ⟨true, 0, 200⟩

def bootOf (attempt : Attempt) : Boot where
  platform := { RfcMgr.Platform.plain with ecmMac := [], syndicationUrl := none }
  env := { RfcMgr.Env.plain with bus := plainBus, opens := fun _ => true }
  attempts _ := attempt

def appliedBoot : Boot :=
  bootOf { Attempt.answered 200 (responseBody []) with header := "configSetHash: H1\r\n".toList }

def unchangedBoot : Boot := bootOf (.answered 304 none)

def Event.sent : Event → Option (Str × Str)
  | .request _ hash time => some (hash, time)
  | _ => none

/-- What the first of them leaves. -/
def named : Files := ⟨some "H1".toList, some "1700000001".toList, some "V1\n".toList⟩

theorem files_after_applied : (after [.start appliedBoot] (.booted none)).files = named := by
  have hfiles : (fun files : Files => (files.hashValue, files.timeValue, files.version))
      (after [.start appliedBoot] (.booted none)).files =
        (named.hashValue, named.timeValue, named.version) := by decide +kernel
  generalize (after [.start appliedBoot] (.booted none)).files = files at hfiles ⊢
  cases files
  simpa [named] using hfiles

theorem sent_unchanged : (unchangedBoot.run named).state.events.map Event.sent =
    [some ("H1".toList, "1700000001".toList), none] := by
  decide +kernel

theorem requests_of_start_unchanged : ∃ url hash time,
    .request url hash time ∈
      (unchangedBoot.run (after [.start appliedBoot] (.booted none)).files).state.events ∧
    Sent (lastHash (after [.start appliedBoot] (.booted none)).outcomes)
      (lastTime (after [.start appliedBoot] (.booted none)).outcomes) hash time := by
  have hmem : some ("H1".toList, "1700000001".toList) ∈
      (unchangedBoot.run named).state.events.map Event.sent := by
    rw [sent_unchanged]
    exact List.mem_cons_self
  obtain ⟨e, he, hsent⟩ := List.mem_map.mp hmem
  cases e with
  | request url hash time =>
      rw [← files_after_applied] at he
      exact ⟨url, hash, time, he, requests_of_start none [.start appliedBoot] unchangedBoot he⟩
  | response curlRetCode httpCode => cases hsent
  | processed o => cases hsent

theorem processed_of_success_unchanged :
    (∃ o, .processed o ∈
      (unchangedBoot.run (after [.start appliedBoot] (.booted none)).files).state.events ∧
        o.rc = .success) ∨
      Processed (after [.start appliedBoot] (.booted none)).outcomes "H1".toList := by
  refine processed_of_success none [.start appliedBoot] ?_ (by decide) ?_
  · rw [files_after_applied]
    intro url hash time curlRetCode hinfix
    have hlength := congrArg List.length sent_unchanged
    rw [List.length_map] at hlength
    have hevents := sent_unchanged
    rw [← hinfix.eq_of_length hlength.symm] at hevents
    simp only [List.map_cons, Event.sent, List.cons.injEq, Option.some.injEq, Prod.mk.injEq] at hevents
    exact hevents.1.1
  · rw [files_after_applied]
    decide +kernel

end RfcMgr.Gateway
