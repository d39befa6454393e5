import RfcMgr.RequestRun
import RfcMgr.ApplyFrame

/-! One pass of the request loop, case by case. What a pass can do is said once here; the results about
runs start from it. -/

namespace RfcMgr

/-- The head of the pass has chosen the server. -/
def resolved (env : Env) (a : Attempt) (st : St) : St :=
  st.onProc (resolveServerUrl env a.filePresent)

/-- The request is sent and its reply is there. -/
def replied (env : Env) (a : Attempt) (st : St) : St :=
  exchanged env a.toExchange (createXconfHTTPUrl env (resolved env a st).proc) (resolved env a st)

/-- A new response is there, and the files of the old one are erased. -/
def received (env : Env) (a : Attempt) (st : St) : St :=
  (replied env a st).onDev fun dev => dev.cleanAllFile.remove tr181FileList

/-- `PreProcessJsonResponse` has left the processor as `p`. -/
def preProcessed (a : Attempt) (st : St) (p : Processor) : St :=
  { st with proc := p, events := st.events ++ [.preProcessed a.body st.proc p] }

/-- Everything the pass asks for is allocated. -/
structure Attempt.Allocated (a : Attempt) : Prop where
  dwnLoc : a.dwnLocAllocated = true
  headerDwnLoc : a.headerDwnLocAllocated = true
  hashParam : a.hashParamAllocated = true

/-- The download of the attempt returns `SUCCESS`. -/
structure Attempt.Answered (a : Attempt) : Prop extends Attempt.Allocated a where
  curl : a.curlRetCode = 0
  http : a.httpCode = 200

/-- **What a pass can do.** -/
inductive Pass (env : Env) (a : Attempt) (st : St) : Exec St (Option ReturnCode) → Prop where
  | noBuffers (halloc : a.dwnLocAllocated = false ∨ a.headerDwnLocAllocated = false) :
      Pass env a st (.ok (some .failure) (resolved env a st))
  | noHashParam (hdwnLoc : a.dwnLocAllocated = true) (hheader : a.headerDwnLocAllocated = true)
      (hhash : a.hashParamAllocated = false) :
      Pass env a st (.ok none (resolved env a st))
  | notFound (halloc : a.Allocated) (hcurl : a.curlRetCode = 0) (hhttp : a.httpCode = 404) :
      Pass env a st (.ok none ((replied env a st).onDev Device.cleanAllFile))
  | notModified (halloc : a.Allocated) (hhttp : a.httpCode = 304) :
      Pass env a st (.ok (some .success) (replied env a st))
  | failed (halloc : a.Allocated) (hfailed : a.curlRetCode ≠ 0 ∨ a.httpCode ≠ 200)
      (hhttp : a.httpCode ≠ 304) (hfound : ¬ (a.curlRetCode = 0 ∧ a.httpCode = 404)) :
      Pass env a st (.ok none (replied env a st))
  | crashed (hanswered : a.Answered)
      (hpre : preProcessJsonResponse env a.body (received env a st).proc = none) :
      Pass env a st (.crash (received env a st))
  | redirected (p : Processor) (hanswered : a.Answered)
      (hpre : preProcessJsonResponse env a.body (received env a st).proc = some p)
      (hstate : p.rfcState = .redo) :
      Pass env a st (.ok none (preProcessed a (received env a st) p))
  | resent (p : Processor) (hanswered : a.Answered)
      (hpre : preProcessJsonResponse env a.body (received env a st).proc = some p)
      (hstate : p.rfcState = .redoWithValidData) :
      Pass env a st (.ok none ((preProcessed a (received env a st) p).onProc fun p =>
        { p with rfcState := .init }))
  | applied (p : Processor) (hanswered : a.Answered)
      (hpre : preProcessJsonResponse env a.body (received env a st).proc = some p)
      (hstate : p.rfcState ≠ .redo ∧ p.rfcState ≠ .redoWithValidData) :
      Pass env a st (applyResponse env a (preProcessed a (received env a st) p))

theorem resolveServerUrl_eq (env : Env) (filePresent : Bool) (p : Processor) :
    ∃ url, resolveServerUrl env filePresent p = { p with xconfServerUrl := url } := by
  unfold resolveServerUrl
  split
  · exact ⟨p.xconfServerUrl, rfl⟩
  · split
    · exact ⟨p.xconfServerUrl, rfl⟩
    · exact ⟨_, rfl⟩

theorem resolved_spec (env : Env) (a : Attempt) (st : St) :
    ∃ url, resolved env a st = ⟨{ st.proc with xconfServerUrl := url }, st.dev, st.events⟩ := by
  obtain ⟨url, hurl⟩ := resolveServerUrl_eq env a.filePresent st.proc
  exact ⟨url, by rw [resolved, St.onProc, hurl]⟩

/-- What is different once the reply is there. -/
theorem replied_spec (env : Env) (a : Attempt) (st : St) :
    ∃ bkupHash hashValue valueTime dev,
      replied env a st =
        ⟨{ (resolved env a st).proc with bkupHash := bkupHash }, dev, st.events ++
          [.request (resolved env a st).proc.xconfServerUrl
            ((createXconfHTTPUrl env (resolved env a st).proc).take 1023) hashValue valueTime,
            .response a.curlRetCode a.httpCode]⟩ ∧
      dev.files = st.dev.files ∧ dev.rfcStore = st.dev.rfcStore :=
  exchanged_spec env a.toExchange (createXconfHTTPUrl env (resolved env a st).proc)
    (resolved env a st)

/-- `t` differs from `s` in what asking for a response changes, with `es` in the trace; the files are
left open. -/
structure Asked (s t : St) (es : List Event) : Prop where
  proc : ∃ url bkupHash, t.proc = { s.proc with xconfServerUrl := url, bkupHash := bkupHash }
  rfcStore : t.dev.rfcStore = s.dev.rfcStore
  events : t.events = s.events ++ es

theorem asked_resolved (env : Env) (a : Attempt) (st : St) : Asked st (resolved env a st) [] := by
  obtain ⟨url, hurl⟩ := resolved_spec env a st
  rw [hurl]
  exact ⟨⟨url, st.proc.bkupHash, rfl⟩, rfl, (List.append_nil _).symm⟩

theorem asked_replied (env : Env) (a : Attempt) (st : St) :
    ∃ url requestUrl hashValue valueTime, Asked st (replied env a st)
      [.request url requestUrl hashValue valueTime, .response a.curlRetCode a.httpCode] := by
  obtain ⟨url, hurl⟩ := resolved_spec env a st
  obtain ⟨b, hash, time, dev, hreplied, -, hstore⟩ := replied_spec env a st
  rw [hreplied, hurl]
  exact ⟨_, _, hash, time, ⟨url, b, rfl⟩, hstore, rfl⟩

theorem Asked.onDev {s t : St} {es : List Event} (h : Asked s t es) {f : Device → Device}
    (hf : (f t.dev).rfcStore = t.dev.rfcStore) : Asked s (t.onDev f) es :=
  ⟨h.proc, hf.trans h.rfcStore, h.events⟩

theorem asked_received (env : Env) (a : Attempt) (st : St) :
    ∃ url requestUrl hashValue valueTime, Asked st (received env a st)
      [.request url requestUrl hashValue valueTime, .response a.curlRetCode a.httpCode] := by
  obtain ⟨url, requestUrl, hash, time, h⟩ := asked_replied env a st
  exact ⟨url, requestUrl, hash, time, h.onDev rfl⟩

theorem handleResponse_pass {env : Env} {a : Attempt} {st : St} (hanswered : a.Answered) :
    Pass env a st (handleResponse env a (received env a st)) := by
  simp only [handleResponse]
  split
  next hpre => exact .crashed hanswered hpre
  next p hpre =>
    split
    next hredo => exact .redirected p hanswered hpre hredo
    next hredo =>
      split
      next hresend => exact .resent p hanswered hpre hresend
      next hresend => exact .applied p hanswered hpre ⟨hredo, hresend⟩

theorem downloadRuntimeFeatutres_eq {env : Env} {x : Exchange} {url : Str} {st : St}
    (hflag : st.proc.urlValidationInProgress = false) :
    downloadRuntimeFeatutres env true x url st =
      if x.hashParamAllocated = false then (.failure, st)
      else handleReply x (exchanged env x url st) := by
  simp only [downloadRuntimeFeatutres, hflag, Bool.true_eq_false, or_false, Bool.false_eq_true,
    if_false]

theorem requestPass_eq {env : Env} {attempts : Nat → Attempt} {i : Nat} {st : St} :
    requestPass env attempts i st =
      if (attempts i).dwnLocAllocated = false ∨ (attempts i).headerDwnLocAllocated = false then
        .ok (some .failure) (resolved env (attempts i) st)
      else
        match downloadRuntimeFeatutres env true (attempts i).toExchange
          (createXconfHTTPUrl env (resolved env (attempts i) st).proc)
          (resolved env (attempts i) st) with
        | (.success, st) => handleResponse env (attempts i) st
        | (.noRfcUpdateRequired, st) => .ok (some .success) st
        | (.failure, st) => .ok none st :=
  rfl

theorem requestPass_pass {env : Env} {attempts : Nat → Attempt} {i : Nat} {st : St}
    (hflag : st.proc.urlValidationInProgress = false) :
    Pass env (attempts i) st (requestPass env attempts i st) := by
  have hresolved : (resolved env (attempts i) st).proc.urlValidationInProgress = false := by
    obtain ⟨url, hurl⟩ := resolved_spec env (attempts i) st
    rw [hurl]
    exact hflag
  rw [requestPass_eq]
  generalize attempts i = a at hresolved ⊢
  split
  next halloc => exact .noBuffers halloc
  next halloc =>
    obtain ⟨hdwnLoc, hheader⟩ := not_or.mp halloc
    rw [Bool.not_eq_false] at hdwnLoc hheader
    rw [downloadRuntimeFeatutres_eq hresolved]
    by_cases hhash : a.hashParamAllocated = false
    · rw [if_pos hhash]
      exact .noHashParam hdwnLoc hheader hhash
    have hallocated : a.Allocated := ⟨hdwnLoc, hheader, Bool.not_eq_false _ ▸ hhash⟩
    rw [if_neg hhash, handleReply]
    by_cases h404 : a.curlRetCode = 0 ∧ a.httpCode = 404
    · rw [if_pos h404]
      exact .notFound hallocated h404.1 h404.2
    rw [if_neg h404]
    by_cases h304 : a.httpCode = 304
    · rw [if_pos h304]
      exact .notModified hallocated h304
    rw [if_neg h304]
    by_cases hfailed : a.curlRetCode ≠ 0 ∨ a.httpCode ≠ 200
    · rw [if_pos hfailed]
      exact .failed hallocated hfailed h304 h404
    rw [if_neg hfailed]
    obtain ⟨hcurl, hhttp⟩ := not_or.mp hfailed
    exact handleResponse_pass ⟨hallocated, not_not.mp hcurl, not_not.mp hhttp⟩

/-! ### The pass that applies a response -/

section Applying

variable {P : Event → Prop}

theorem applyFrame_updateHashInDB (env : Env) (hash : Str) (st : St) :
    ApplyFrame P st (updateHashInDB env hash st) :=
  ⟨⟨_, _, _, _, _, _, rfl⟩, .of_eq rfl⟩

theorem applyFrame_updateTimeInDB (env : Env) (time : Str) (st : St) :
    ApplyFrame P st (updateTimeInDB env time st) := .of_proc_eq rfl (.of_eq rfl)

theorem applyFrame_updateHashAndTimeInDB (env : Env) (header : Str) (st : St) :
    ApplyFrame P st (updateHashAndTimeInDB env header st) := by
  simp only [updateHashAndTimeInDB]
  split
  · exact (applyFrame_updateHashInDB env _ st).trans (applyFrame_updateTimeInDB ..)
  · exact applyFrame_updateTimeInDB ..

theorem applyFrame_storeXconfEndpointMetadata (env : Env) (st : St)
    (hP : ∀ selector url, P (.stored selector url)) :
    ApplyFrame P st (storeXconfEndpointMetadata env st) := by
  refine .of_proc_eq rfl ⟨[.stored st.proc.rfcSelectOpt st.proc.xconfServerUrl], rfl, ?_⟩
  intro e he
  rw [List.mem_singleton.mp he]
  exact hP _ _

theorem applyFrame_storeOutcome (env : Env) (header : Str) (rc : ReturnCode) (st : St)
    (hP : ∀ selector url, P (.stored selector url)) :
    ApplyFrame P st (storeOutcome env header rc st) := by
  refine ApplyFrame.trans ?_ (applyFrame_storeXconfEndpointMetadata env _ hP)
  cases rc with
  | success => exact applyFrame_updateHashAndTimeInDB ..
  | failure | noRfcUpdateRequired =>
      exact (applyFrame_updateHashInDB ..).trans (applyFrame_updateTimeInDB ..)

end Applying

theorem applyFrame_applyResponse (env : Env) (a : Attempt) (st : St) :
    ApplyFrame (Event.OfApply st.proc.rfcKeyAndValueMap a.body) (st.log (.apply a.body))
      (applyResponse env a st).state := by
  refine Exec.state_bind
    (P := ApplyFrame (Event.OfApply st.proc.rfcKeyAndValueMap a.body) (st.log (.apply a.body)))
    (applyFrame_processJsonResponse env a.body st) ?_
  intro rc st' _ hjson
  exact hjson.trans (applyFrame_storeOutcome env a.header rc st' fun _ _ => .inr (.inr ⟨_, _, rfl⟩))

/-- What is stored after an apply step adds nothing else to the trace. -/
theorem mem_of_mem_applyResponse {env : Env} {a : Attempt} {st : St} {e : Event}
    (hstored : ∀ selector url, e ≠ .stored selector url)
    (hmem : e ∈ (applyResponse env a st).state.events) :
    e ∈ (processJsonResponse env a.body st).state.events := by
  unfold applyResponse at hmem
  generalize processJsonResponse env a.body st = out at hmem ⊢
  cases out with
  | crash t => exact hmem
  | ok rc t =>
      have hframe := applyFrame_storeOutcome (P := fun e => ∃ selector url, e = .stored selector url)
        env a.header rc t fun _ _ => ⟨_, _, rfl⟩
      apply hframe.events.mem_of_not _ hmem
      rintro ⟨selector, url, h⟩
      exact hstored selector url h

/-- The pass that applies a response is the last one. -/
theorem applyResponse_ne_none {env : Env} {a : Attempt} {st t : St} :
    .ok none t ≠ applyResponse env a st := by
  intro h
  obtain ⟨_, _, -, hstored⟩ := Exec.bind_eq_ok.mp h.symm
  cases hstored

/-- A pass that ends the run with `SUCCESS` after an apply step has the successful one in its trace. -/
theorem applied_mem_of_applyResponse {env : Env} {a : Attempt} {st t : St}
    (h : applyResponse env a st = .ok (some .success) t) : ∃ dev, .applied a.body dev ∈ t.events := by
  obtain ⟨rc, st', hjson, hrest⟩ := Exec.bind_eq_ok.mp h
  cases rc with
  | success =>
      cases hrest
      have hframe := applyFrame_storeOutcome (P := fun _ => True) env a.header .success st'
        fun _ _ => trivial
      obtain ⟨es, hes, -⟩ := hframe.events
      refine ⟨st'.dev, ?_⟩
      rw [hes]
      exact List.mem_append_left _ (applied_mem_of_success hjson)
  | failure | noRfcUpdateRequired => cases hrest

/-! ### The run -/

/-- The run makes its `i`-th pass, from this state. -/
structure MakesPass (env : Env) (attempts : Nat → Attempt) (st : St) (i : Nat) (s : St) : Prop where
  unblocked : env.directBlocked = false
  lt : i < retryCount
  passes : Exec.Passes (requestPass env attempts) 0 (st.onProc chooseSelectOpt) i s

/-- What the passes that go round again keep holds where a pass starts. -/
theorem MakesPass.invariant {env : Env} {attempts : Nat → Attempt} {st : St} {P : St → Prop} {i : Nat}
    {s : St} (h : MakesPass env attempts st i s) (hinit : P (st.onProc chooseSelectOpt))
    (hflag : ∀ s, P s → s.proc.urlValidationInProgress = false)
    (hround : ∀ i s s', P s → Pass env (attempts i) s (.ok none s') → P s') : P s :=
  h.passes.inv (P := fun _ s => P s)
    (fun i s s' _ hs hok => hround i s s' hs (hok ▸ requestPass_pass (hflag s hs))) hinit

/-- **The rule for runs**: an invariant of the passes that go round again, and what a run has reached
when it is blocked, runs out of passes, breaks or crashes. -/
theorem run_passes_rule {env : Env} {attempts : Nat → Attempt} {st : St} {P : Nat → St → Prop}
    {Q : Exec St ReturnCode → Prop} (hinit : P 0 (st.onProc chooseSelectOpt))
    (hflag : ∀ i s, P i s → s.proc.urlValidationInProgress = false)
    (hround : ∀ i s s', MakesPass env attempts st i s → P i s →
      Pass env (attempts i) s (.ok none s') → P (i + 1) s')
    (hblocked : P 0 (st.onProc chooseSelectOpt) → env.directBlocked = true →
      Q (.ok .failure (st.onProc chooseSelectOpt)))
    (hexhausted : ∀ s, P retryCount s → Q (.ok .failure s))
    (hbroke : ∀ i s r t, MakesPass env attempts st i s → P i s →
      Pass env (attempts i) s (.ok (some r) t) → Q (.ok r t))
    (hcrashed : ∀ i s t, MakesPass env attempts st i s → P i s →
      Pass env (attempts i) s (.crash t) → Q (.crash t)) :
    Q (processRuntimeFeatureControlReq env attempts st) := by
  simp only [processRuntimeFeatureControlReq]
  split
  next h => exact hblocked hinit h
  next h =>
    have hunblocked : env.directBlocked = false := Bool.eq_false_iff.mpr h
    obtain ⟨j, t, hpasses, hend⟩ := Exec.retry_spec (requestPass env attempts) .failure retryCount 0
      (st.onProc chooseSelectOpt)
    have hpass : ∀ i s, P i s → Pass env (attempts i) s (requestPass env attempts i s) :=
      fun i s hs => requestPass_pass (hflag i s hs)
    have ht : P j t := by
      have hboth := hpasses.inv (P := fun i s => P i s ∧
        Exec.Passes (requestPass env attempts) 0 (st.onProc chooseSelectOpt) i s)
        (fun i s s' hi ⟨hs, hreached⟩ hok => ?_) ⟨hinit, .refl 0 _⟩
      · exact hboth.1
      have hlast : j ≤ retryCount := hend.le.trans (Nat.zero_add _).le
      have hmakes : MakesPass env attempts st i s := ⟨hunblocked, by omega, hreached⟩
      exact ⟨hround i s s' hmakes hs (hok ▸ hpass i s hs), hreached.snoc hok⟩
    generalize Exec.retry (requestPass env attempts) .failure retryCount 0
      (st.onProc chooseSelectOpt) = out at hend ⊢
    rw [Nat.zero_add] at hend
    cases hend with
    | exhausted hj =>
        subst hj
        exact hexhausted t ht
    | broke hj hbreak =>
        exact hbroke j t _ _ ⟨hunblocked, hj, hpasses⟩ ht (hbreak ▸ hpass j t ht)
    | crashed hj hcrash =>
        exact hcrashed j t _ ⟨hunblocked, hj, hpasses⟩ ht (hcrash ▸ hpass j t ht)

/-- The same rule where it does not matter how a pass is reached. -/
theorem run_rule {env : Env} {attempts : Nat → Attempt} {st : St} {P : Nat → St → Prop}
    {Q : Exec St ReturnCode → Prop} (hinit : P 0 (st.onProc chooseSelectOpt))
    (hflag : ∀ i s, P i s → s.proc.urlValidationInProgress = false)
    (hround : ∀ i s s', i < retryCount → P i s → Pass env (attempts i) s (.ok none s') →
      P (i + 1) s')
    (hblocked : P 0 (st.onProc chooseSelectOpt) → env.directBlocked = true →
      Q (.ok .failure (st.onProc chooseSelectOpt)))
    (hexhausted : ∀ s, P retryCount s → Q (.ok .failure s))
    (hbroke : ∀ i s r t, i < retryCount → P i s → Pass env (attempts i) s (.ok (some r) t) →
      Q (.ok r t))
    (hcrashed : ∀ i s t, i < retryCount → P i s → Pass env (attempts i) s (.crash t) →
      Q (.crash t)) :
    Q (processRuntimeFeatureControlReq env attempts st) :=
  run_passes_rule hinit hflag (fun i s s' h => hround i s s' h.lt) hblocked hexhausted
    (fun i s r t h => hbroke i s r t h.lt) (fun i s t h => hcrashed i s t h.lt)

/-- The rule for what holds of the state at the end, however the run ends. -/
theorem run_state_rule {env : Env} {attempts : Nat → Attempt} {st : St} {P : Nat → St → Prop}
    {Q : St → Prop} (hinit : P 0 (st.onProc chooseSelectOpt))
    (hflag : ∀ i s, P i s → s.proc.urlValidationInProgress = false)
    (hround : ∀ i s s', i < retryCount → P i s → Pass env (attempts i) s (.ok none s') →
      P (i + 1) s')
    (hwaiting : ∀ i s, i ≤ retryCount → P i s → Q s)
    (hlast : ∀ i s out, i < retryCount → P i s → Pass env (attempts i) s out → Q out.state) :
    Q (processRuntimeFeatureControlReq env attempts st).state :=
  run_rule (Q := fun out => Q out.state) hinit hflag hround
    (fun h _ => hwaiting 0 _ (Nat.zero_le _) h) (fun s h => hwaiting retryCount s (Nat.le_refl _) h)
    (fun i s _ _ hi h hpass => hlast i s _ hi h hpass) (fun i s _ hi h hpass => hlast i s _ hi h hpass)

end RfcMgr
