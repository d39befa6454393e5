import RfcMgr.RequestPass

/-! A reply of 404. `DownloadRuntimeFeatutres` logs that no retry is needed, but returns the `FAILURE` of
any request that failed, and the loop of the run retries. -/

namespace RfcMgr

/-- A request goes out, one of the run or one that validates a URL. -/
def Event.sent : Event → Bool
  | .request _ _ _ _ => true
  | .validationRequest _ => true
  | _ => false

/-- Nothing is sent behind a 404. -/
def EndsAtNotFound (events : List Event) : Prop :=
  ∀ earlier later, events = earlier ++ .response 0 404 :: later → ∀ e ∈ later, e.sent = false

/-- The attempt is answered with 404. -/
structure Attempt.NotFound (a : Attempt) : Prop extends Attempt.Allocated a where
  curl : a.curlRetCode = 0
  http : a.httpCode = 404

/-- Behind attempt `i` the loop comes to an attempt that has all it needs for a request. -/
def AsksAgain (attempts : Nat → Attempt) (i : Nat) : Prop :=
  ∃ j, i < j ∧ j < retryCount ∧ (attempts j).Allocated ∧ ∀ k, i < k → k < j →
    (attempts k).dwnLocAllocated = true ∧ (attempts k).headerDwnLocAllocated = true

/-! ### Traces -/

theorem endsAtNotFound_append {es fs : List Event} (h : .response 0 404 ∉ es) :
    EndsAtNotFound (es ++ fs) ↔ EndsAtNotFound fs := by
  constructor
  · intro hends earlier later heq
    apply hends (es ++ earlier) later
    rw [heq, List.append_assoc]
  · intro hends earlier later heq
    obtain ⟨rest, rfl, hfs⟩ | ⟨rest, hes, hlater⟩ := List.append_eq_append_iff.mp heq
    · exact hends rest later hfs
    · cases rest with
      | nil => exact hends [] later hlater.symm
      | cons e rest =>
          obtain ⟨rfl, -⟩ := List.cons.inj hlater
          exact absurd (hes ▸ List.mem_append_right earlier List.mem_cons_self) h

theorem EndsAtNotFound.not_sent {es fs : List Event} (h : EndsAtNotFound (es ++ fs))
    (hmem : .response 0 404 ∈ es) : ∀ e ∈ fs, e.sent = false := by
  obtain ⟨earlier, later, rfl⟩ := List.append_of_mem hmem
  intro e he
  apply h earlier (later ++ fs) (by simp)
  exact List.mem_append_right later he

theorem EndsAtNotFound.front {es fs : List Event} (h : EndsAtNotFound (es ++ fs)) :
    EndsAtNotFound es := by
  intro earlier later heq e he
  apply h earlier (later ++ fs) (by simp [heq])
  exact List.mem_append_left fs he

/-! ### One pass -/

section

variable {env : Env} {a : Attempt} {s : St} {out : Exec St (Option ReturnCode)}

/-- Events that are no reply. -/
def Event.NoReply (e : Event) : Prop := ∀ c http, e ≠ .response c http

theorem Event.OfApply.noReply {map : ConfigMap} {body : Body} {e : Event} (h : e.OfApply map body) :
    e.NoReply := by
  rintro c http rfl
  rcases h with h | ⟨dev, h⟩ | ⟨selector, url, h⟩
  · exact h
  · cases h
  · cases h

theorem grows_applyResponse (env : Env) (a : Attempt) (s : St) :
    Grows Event.NoReply s (applyResponse env a s).state := by
  have happly : Grows Event.NoReply s (s.log (.apply a.body)) := .log s (by simp [Event.NoReply])
  exact happly.trans ((applyFrame_applyResponse env a s).events.imp fun _ h => h.noReply)

/-- The trace grows by a request and its reply, and by more only behind a 200. -/
def Replies (a : Attempt) (s t : St) : Prop :=
  ∃ url requestUrl hash time rest, t.events = s.events ++
      ([.request url requestUrl hash time, .response a.curlRetCode a.httpCode] ++ rest) ∧
    (a.httpCode ≠ 200 → rest = []) ∧ ∀ e ∈ rest, e.NoReply

/-- **What a pass adds to the trace**: nothing, or with everything allocated a request and its reply. -/
theorem Pass.trace (hpass : Pass env a s out) :
    ¬ a.Allocated ∧ out.state.events = s.events ∨ a.Allocated ∧ Replies a s out.state := by
  obtain ⟨url, requestUrl, hash, time, hreplied⟩ := asked_replied env a s
  have hreceived : (received env a s).events = _ := hreplied.events
  have hbare : ∀ t : St, t.events = (replied env a s).events → Replies a s t := by
    intro t ht
    refine ⟨url, requestUrl, hash, time, [], ?_, fun _ => rfl, by simp⟩
    rw [ht, hreplied.events, List.append_nil]
  have hmore : ∀ t : St, Grows Event.NoReply (received env a s) t → a.httpCode = 200 →
      Replies a s t := by
    rintro t ⟨rest, hrest, hnoReply⟩ hhttp
    refine ⟨url, requestUrl, hash, time, rest, ?_, fun h => absurd hhttp h, hnoReply⟩
    rw [hrest, hreceived, List.append_assoc]
  have hpre : ∀ p, Grows Event.NoReply (received env a s) (preProcessed a (received env a s) p) :=
    fun p => ⟨_, rfl, by simp [Event.NoReply]⟩
  cases hpass with
  | noBuffers halloc =>
      refine .inl ⟨fun h => ?_, (asked_resolved env a s).events.trans (List.append_nil _)⟩
      simp [h.dwnLoc, h.headerDwnLoc] at halloc
  | noHashParam hdwnLoc hheader hhash =>
      refine .inl ⟨fun h => ?_, (asked_resolved env a s).events.trans (List.append_nil _)⟩
      simp [h.hashParam] at hhash
  | notFound halloc => exact .inr ⟨halloc, hbare _ rfl⟩
  | notModified halloc => exact .inr ⟨halloc, hbare _ rfl⟩
  | failed halloc => exact .inr ⟨halloc, hbare _ rfl⟩
  | crashed hanswered => exact .inr ⟨hanswered.toAllocated, hmore _ (.refl _) hanswered.http⟩
  | redirected p hanswered => exact .inr ⟨hanswered.toAllocated, hmore _ (hpre p) hanswered.http⟩
  | resent p hanswered => exact .inr ⟨hanswered.toAllocated, hmore _ (hpre p) hanswered.http⟩
  | applied p hanswered =>
      have hgrows := (hpre p).trans (grows_applyResponse env a _)
      exact .inr ⟨hanswered.toAllocated, hmore _ hgrows hanswered.http⟩

theorem Pass.grows (hpass : Pass env a s out) : Grows (fun _ => True) s out.state := by
  rcases hpass.trace with ⟨-, hevents⟩ | ⟨-, url, requestUrl, hash, time, rest, hevents, -, -⟩
  · exact .of_eq hevents
  · exact ⟨_, hevents, fun _ _ => trivial⟩

theorem Pass.flag {t : St} (hpass : Pass env a s (.ok none t))
    (hflag : s.proc.urlValidationInProgress = false) : t.proc.urlValidationInProgress = false := by
  obtain ⟨url, bkupHash, hresolved⟩ := (asked_resolved env a s).proc
  obtain ⟨_, _, _, _, hasked⟩ := asked_replied env a s
  obtain ⟨url', bkupHash', hreplied⟩ := hasked.proc
  have hreceived : (received env a s).proc.urlValidationInProgress = false :=
    (congrArg Processor.urlValidationInProgress hreplied).trans hflag
  generalize hout : Exec.ok none t = out at hpass
  cases hpass with
  | noBuffers | notModified | crashed => cases hout
  | noHashParam =>
      cases hout
      rw [hresolved]
      exact hflag
  | notFound | failed =>
      cases hout
      exact hreceived
  | redirected p _ hpre =>
      cases hout
      exact (preProcess_flag hpre).trans hreceived
  | resent p _ hpre =>
      cases hout
      exact (preProcess_flag hpre).trans hreceived
  | applied => exact absurd hout applyResponse_ne_none

theorem Pass.eq_of_notFound (hpass : Pass env a s out) (hfound : a.NotFound) :
    out = .ok none ((replied env a s).onDev Device.cleanAllFile) := by
  cases hpass with
  | notFound => rfl
  | noBuffers halloc => simp [hfound.dwnLoc, hfound.headerDwnLoc] at halloc
  | noHashParam _ _ hnone => cases hfound.hashParam.symm.trans hnone
  | notModified _ hnone => cases hfound.http.symm.trans hnone
  | failed _ _ _ hnot => exact absurd ⟨hfound.curl, hfound.http⟩ hnot
  | crashed hanswered => cases hfound.http.symm.trans hanswered.http
  | redirected _ hanswered => cases hfound.http.symm.trans hanswered.http
  | resent _ hanswered => cases hfound.http.symm.trans hanswered.http
  | applied _ hanswered => cases hfound.http.symm.trans hanswered.http

/-- Without its hash parameter an attempt that has its buffers is a failed one. -/
theorem Pass.eq_of_not_allocated (hpass : Pass env a s out) (hdwnLoc : a.dwnLocAllocated = true)
    (hheader : a.headerDwnLocAllocated = true) (halloc : ¬ a.Allocated) :
    out = .ok none (resolved env a s) := by
  cases hpass with
  | noHashParam => rfl
  | noBuffers hnone => simp [hdwnLoc, hheader] at hnone
  | notFound hall => exact absurd hall halloc
  | notModified hall => exact absurd hall halloc
  | failed hall => exact absurd hall halloc
  | crashed hanswered => exact absurd hanswered.toAllocated halloc
  | redirected _ hanswered => exact absurd hanswered.toAllocated halloc
  | resent _ hanswered => exact absurd hanswered.toAllocated halloc
  | applied _ hanswered => exact absurd hanswered.toAllocated halloc

theorem Pass.buffers {t : St} (hpass : Pass env a s (.ok none t)) :
    a.dwnLocAllocated = true ∧ a.headerDwnLocAllocated = true := by
  generalize hout : Exec.ok none t = out at hpass
  cases hpass with
  | noBuffers | notModified | crashed => cases hout
  | noHashParam hdwnLoc hheader => exact ⟨hdwnLoc, hheader⟩
  | notFound halloc => exact ⟨halloc.dwnLoc, halloc.headerDwnLoc⟩
  | failed halloc => exact ⟨halloc.dwnLoc, halloc.headerDwnLoc⟩
  | redirected _ hanswered => exact ⟨hanswered.dwnLoc, hanswered.headerDwnLoc⟩
  | resent _ hanswered => exact ⟨hanswered.dwnLoc, hanswered.headerDwnLoc⟩
  | applied => exact absurd hout applyResponse_ne_none

/-- A pass that sends a request behind a 404 spoils the trace. -/
theorem Pass.not_endsAtNotFound (hpass : Pass env a s out) (halloc : a.Allocated)
    (hmem : .response 0 404 ∈ s.events) : ¬ EndsAtNotFound out.state.events := by
  intro hends
  rcases hpass.trace with ⟨hnot, -⟩ | ⟨-, url, requestUrl, hash, time, rest, hevents, -, -⟩
  · exact hnot halloc
  · rw [hevents] at hends
    cases hends.not_sent hmem (.request url requestUrl hash time) (by simp)

/-- A pass behind no 404 leaves a trace that ends at its own, if it has one. -/
theorem Pass.endsAtNotFound (hpass : Pass env a s out) (hnot : .response 0 404 ∉ s.events) :
    EndsAtNotFound out.state.events ∧ (.response 0 404 ∈ out.state.events → a.NotFound) := by
  rcases hpass.trace with
    ⟨-, hevents⟩ | ⟨halloc, url, requestUrl, hash, time, rest, hevents, hrest, hnoReply⟩
  · rw [hevents]
    refine ⟨fun earlier later heq => ?_, fun hmem => absurd hmem hnot⟩
    exact absurd (heq ▸ List.mem_append_right earlier List.mem_cons_self) hnot
  · have hreply : ∀ c http, .response c http ∉ rest := fun c http hmem => hnoReply _ hmem c http rfl
    have hmem : .response 0 404 ∈ out.state.events → a.NotFound := by
      intro h
      simp only [hevents, List.mem_append, hnot, hreply, List.mem_cons, List.not_mem_nil,
        reduceCtorEq, Event.response.injEq, false_or, or_false] at h
      exact ⟨halloc, h.1.symm, h.2.symm⟩
    refine ⟨?_, hmem⟩
    rw [hevents, endsAtNotFound_append hnot]
    intro earlier later heq
    have hfound : a.NotFound := hmem (by
      rw [hevents, heq]
      simp)
    obtain rfl := hrest (by simp [hfound.http])
    rcases earlier with _ | ⟨e, _ | ⟨e', earlier⟩⟩
    · cases heq
    · simp only [List.append_nil, List.cons_append, List.nil_append, List.cons.injEq] at heq
      simp [← heq.2.2]
    · simp at heq

end

/-! ### The run -/

section

variable {env : Env} {attempts : Nat → Attempt} {st : St}

theorem grows_retry (dflt : ReturnCode) (n i : Nat) {s : St}
    (hflag : s.proc.urlValidationInProgress = false) :
    Grows (fun _ => True) s (Exec.retry (requestPass env attempts) dflt n i s).state := by
  induction n generalizing i s with
  | zero => exact .refl s
  | succ n ih =>
      have hpass : Pass env (attempts i) s (requestPass env attempts i s) := requestPass_pass hflag
      rw [Exec.retry]
      generalize requestPass env attempts i s = out at hpass ⊢
      refine Exec.state_bind (P := fun t => Grows (fun _ => True) s t) hpass.grows ?_
      intro r t hout hgrows
      cases r with
      | some r => exact hgrows
      | none => exact hgrows.trans (ih (i + 1) ((hout ▸ hpass).flag hflag))

theorem MakesPass.flag {i : Nat} {s : St} (h : MakesPass env attempts st i s)
    (hflag : st.proc.urlValidationInProgress = false) : s.proc.urlValidationInProgress = false :=
  h.invariant (P := fun s => s.proc.urlValidationInProgress = false) hflag (fun _ hs => hs)
    fun _ _ _ hs hpass => hpass.flag hs

theorem MakesPass.pass {i : Nat} {s : St} (h : MakesPass env attempts st i s)
    (hflag : st.proc.urlValidationInProgress = false) :
    Pass env (attempts i) s (requestPass env attempts i s) := requestPass_pass (h.flag hflag)

/-- What a run adds to its trace after a pass. -/
theorem MakesPass.grows_run {i : Nat} {s : St} (h : MakesPass env attempts st i s)
    (hflag : st.proc.urlValidationInProgress = false) :
    Grows (fun _ => True) (requestPass env attempts i s).state
      (processRuntimeFeatureControlReq env attempts st).state := by
  have hpass := h.pass hflag
  have hlt : i < 0 + retryCount := by simpa using h.lt
  obtain ⟨m, hrun⟩ := h.passes.retry_bind .failure hlt
  rw [processRuntimeFeatureControlReq]
  simp only [h.unblocked, Bool.false_eq_true, if_false]
  rw [hrun]
  generalize requestPass env attempts i s = out at hpass ⊢
  refine Exec.state_bind (P := fun t => Grows (fun _ => True) out.state t) (.refl _) ?_
  intro r t hout hgrows
  cases r with
  | some r => exact hgrows
  | none => exact hgrows.trans (grows_retry .failure m (i + 1) ((hout ▸ hpass).flag (h.flag hflag)))

/-- A request behind a 404 stays in the trace of the run. -/
theorem MakesPass.not_endsAtNotFound {i : Nat} {s : St} (h : MakesPass env attempts st i s)
    (hflag : st.proc.urlValidationInProgress = false) (halloc : (attempts i).Allocated)
    (hmem : .response 0 404 ∈ s.events) :
    ¬ EndsAtNotFound (processRuntimeFeatureControlReq env attempts st).state.events := by
  have hpass := h.pass hflag
  obtain ⟨es, hes, -⟩ := h.grows_run hflag
  rw [hes]
  intro hends
  exact hpass.not_endsAtNotFound halloc hmem hends.front

/-- From a 404 on the run comes to every later pass that the buffers let it come to, or has sent
another request on the way. -/
theorem MakesPass.later {i j : Nat} {s : St} (h : MakesPass env attempts st i s)
    (hflag : st.proc.urlValidationInProgress = false)
    (hfound : (attempts i).NotFound) (hlt : i < j) (hj : j < retryCount)
    (hbuffers : ∀ k, i < k → k < j →
      (attempts k).dwnLocAllocated = true ∧ (attempts k).headerDwnLocAllocated = true) :
    ¬ EndsAtNotFound (processRuntimeFeatureControlReq env attempts st).state.events ∨
      ∃ t, MakesPass env attempts st j t ∧ .response 0 404 ∈ t.events := by
  induction j, hlt using Nat.le_induction with
  | base =>
      have hout := (h.pass hflag).eq_of_notFound hfound
      refine .inr ⟨_, ⟨h.unblocked, hj, h.passes.snoc hout⟩, ?_⟩
      obtain ⟨_, _, _, _, hasked⟩ := asked_replied env (attempts i) s
      have hevents : ((replied env (attempts i) s).onDev Device.cleanAllFile).events = _ :=
        hasked.events
      rw [hevents, hfound.curl, hfound.http]
      simp
  | succ j hij ih =>
      obtain hbad | ⟨t, hmakes, hmem⟩ := ih (by omega) fun k hik hkj => hbuffers k hik (by omega)
      · exact .inl hbad
      by_cases halloc : (attempts j).Allocated
      · exact .inl (hmakes.not_endsAtNotFound hflag halloc hmem)
      obtain ⟨hdwnLoc, hheader⟩ := hbuffers j (by omega) (by omega)
      have hout := (hmakes.pass hflag).eq_of_not_allocated hdwnLoc hheader halloc
      refine .inr ⟨_, ⟨hmakes.unblocked, hj, hmakes.passes.snoc hout⟩, ?_⟩
      rw [(asked_resolved env (attempts j) t).events]
      exact List.mem_append_left _ hmem

theorem MakesPass.not_endsAtNotFound_of_asksAgain {i : Nat} {s : St}
    (h : MakesPass env attempts st i s) (hflag : st.proc.urlValidationInProgress = false)
    (hfound : (attempts i).NotFound) (hasks : AsksAgain attempts i) :
    ¬ EndsAtNotFound (processRuntimeFeatureControlReq env attempts st).state.events := by
  obtain ⟨j, hij, hj, halloc, hbuffers⟩ := hasks
  obtain hbad | ⟨t, hmakes, hmem⟩ := h.later hflag hfound hij hj hbuffers
  · exact hbad
  · exact hmakes.not_endsAtNotFound hflag halloc hmem

/-- The head of pass `i`: the trace ends at its 404, and the passes behind that had their buffers. -/
structure Quiet (env : Env) (attempts : Nat → Attempt) (st : St) (i : Nat) (s : St) : Prop where
  flag : s.proc.urlValidationInProgress = false
  ends : EndsAtNotFound s.events
  found : .response 0 404 ∈ s.events → ∃ j t, j < i ∧ MakesPass env attempts st j t ∧
    (attempts j).NotFound ∧ ∀ k, j < k → k < i →
      (attempts k).dwnLocAllocated = true ∧ (attempts k).headerDwnLocAllocated = true

theorem quiet_start (hflag : st.proc.urlValidationInProgress = false) (hevents : st.events = []) :
    Quiet env attempts st 0 (st.onProc chooseSelectOpt) := by
  refine ⟨hflag, fun earlier later heq => ?_, fun hmem => ?_⟩
  · rw [St.onProc_events, hevents] at heq
    simp at heq
  · rw [St.onProc_events, hevents] at hmem
    cases hmem

variable {i : Nat} {s : St} {out : Exec St (Option ReturnCode)}

/-- An attempt behind a 404 does not get as far as its request. -/
theorem Quiet.not_allocated (h : Quiet env attempts st i s) (hmakes : MakesPass env attempts st i s)
    (hcond : ∀ i s, MakesPass env attempts st i s → (attempts i).NotFound → ¬ AsksAgain attempts i)
    (hmem : .response 0 404 ∈ s.events) : ¬ (attempts i).Allocated := by
  intro halloc
  obtain ⟨j, t, hji, hfound, hnot, hbuffers⟩ := h.found hmem
  exact hcond j t hfound hnot ⟨i, hji, hmakes.lt, halloc, hbuffers⟩

theorem Quiet.endsAtNotFound (h : Quiet env attempts st i s)
    (hcond : ∀ i s, MakesPass env attempts st i s → (attempts i).NotFound → ¬ AsksAgain attempts i)
    (hmakes : MakesPass env attempts st i s) (hpass : Pass env (attempts i) s out) :
    EndsAtNotFound out.state.events := by
  by_cases hmem : .response 0 404 ∈ s.events
  · have hnot := h.not_allocated hmakes hcond hmem
    rcases hpass.trace with ⟨-, hevents⟩ | ⟨halloc, -⟩
    · rw [hevents]
      exact h.ends
    · exact absurd halloc hnot
  · exact (hpass.endsAtNotFound hmem).1

theorem Quiet.round {t : St} (h : Quiet env attempts st i s)
    (hcond : ∀ i s, MakesPass env attempts st i s → (attempts i).NotFound → ¬ AsksAgain attempts i)
    (hmakes : MakesPass env attempts st i s) (hpass : Pass env (attempts i) s (.ok none t)) :
    Quiet env attempts st (i + 1) t := by
  refine ⟨hpass.flag h.flag, h.endsAtNotFound hcond hmakes hpass, fun hfound => ?_⟩
  by_cases hmem : .response 0 404 ∈ s.events
  · have hnot := h.not_allocated hmakes hcond hmem
    obtain ⟨j, u, hji, hmakes', hnotFound, hbuffers⟩ := h.found hmem
    refine ⟨j, u, by omega, hmakes', hnotFound, fun k hjk hki => ?_⟩
    obtain hlt | rfl : k < i ∨ k = i := by omega
    · exact hbuffers k hjk hlt
    · exact hpass.buffers
  · exact ⟨i, s, by omega, hmakes, (hpass.endsAtNotFound hmem).2 hfound, fun k hik hki => by omega⟩

/-- **When a 404 ends the run**: exactly when no attempt behind it gets as far as its request. The
buffers apart, that is when it is the last one. -/
theorem run_endsAtNotFound_iff (env : Env) (attempts : Nat → Attempt) (st : St)
    (hflag : st.proc.urlValidationInProgress = false) (hevents : st.events = []) :
    EndsAtNotFound (processRuntimeFeatureControlReq env attempts st).state.events ↔
      ∀ i s, MakesPass env attempts st i s → (attempts i).NotFound → ¬ AsksAgain attempts i := by
  constructor
  · intro hends i s hmakes hfound hasks
    exact hmakes.not_endsAtNotFound_of_asksAgain hflag hfound hasks hends
  · intro hcond
    have hends : ∀ i s out, MakesPass env attempts st i s → Quiet env attempts st i s →
        Pass env (attempts i) s out → EndsAtNotFound out.state.events :=
      fun i s out hmakes hquiet hpass => hquiet.endsAtNotFound hcond hmakes hpass
    refine run_passes_rule (P := Quiet env attempts st)
      (Q := fun out => EndsAtNotFound out.state.events) (quiet_start hflag hevents)
      (fun _ _ h => h.flag) ?_ (fun h _ => h.ends) (fun _ h => h.ends) ?_ ?_
    · exact fun i s s' hmakes h hpass => h.round hcond hmakes hpass
    · exact fun i s r t hmakes h hpass => hends i s _ hmakes h hpass
    · exact fun i s t hmakes h hpass => hends i s _ hmakes h hpass

end

/-- Two requests fail and the third one is answered with 404. -/
theorem run_endsAtNotFound_last : EndsAtNotFound (processRuntimeFeatureControlReq .plain
    (fun i => .answered (if i = 2 then 404 else 500) none) .fresh).state.events := by
  refine (run_endsAtNotFound_iff .plain _ .fresh rfl rfl).mpr ?_
  rintro i s - hfound ⟨j, hij, hj, -⟩
  have hhttp : (if i = 2 then 404 else 500 : Int) = 404 := hfound.http
  have hi : i = 2 := by
    by_contra hne
    simp [hne] at hhttp
  have hlast : j < 3 := hj
  omega

/-- A server that answers every request with 404 is asked again. -/
theorem not_run_endsAtNotFound : ¬ ∀ (env : Env) (attempts : Nat → Attempt) (st : St),
    st.proc.urlValidationInProgress = false → st.events = [] →
      EndsAtNotFound (processRuntimeFeatureControlReq env attempts st).state.events := by
  intro h
  have hmakes : MakesPass .plain (fun _ => .answered 404 none) .fresh 0 (St.fresh.onProc chooseSelectOpt) :=
    ⟨rfl, Nat.zero_lt_succ _, .refl _ _⟩
  have halloc : (Attempt.answered 404 none).Allocated := ⟨rfl, rfl, rfl⟩
  have hasks : AsksAgain (fun _ => .answered 404 none) 0 :=
    ⟨1, by decide, by decide, halloc, fun k hk hk' => by omega⟩
  exact hmakes.not_endsAtNotFound_of_asksAgain rfl ⟨halloc, rfl, rfl⟩ hasks (h _ _ _ rfl rfl)

end RfcMgr
