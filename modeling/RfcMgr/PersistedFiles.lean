import RfcMgr.OwnResponse

/-! The persisted files over a run that applies nothing. They are erased as soon as a response is
there, before anybody looks at it, so such a run keeps them only when it receives none. -/

namespace RfcMgr

/-- The attempt has neither a response nor an end of the run in it, so another one follows. -/
inductive Attempt.Retried (a : Attempt) : Prop where
  | noHashParam (hdwnLoc : a.dwnLocAllocated = true) (hheader : a.headerDwnLocAllocated = true)
      (hhash : a.hashParamAllocated = false)
  | failed (halloc : a.Allocated) (hfailed : a.curlRetCode ≠ 0 ∨ a.httpCode ≠ 200)
      (hhttp : a.httpCode ≠ 304)

/-- One of the attempts of a run is answered with a new response. -/
def NewResponse (attempts : Nat → Attempt) : Prop :=
  ∃ i < retryCount, (∀ j < i, (attempts j).Retried) ∧ (attempts i).Answered

/-- None of the files a new response erases is there. -/
def Erased (dev : Device) : Prop := ∀ filename, Tracked filename → dev.files filename = none

def SameFiles (dev dev' : Device) : Prop :=
  ∀ filename, Tracked filename → dev'.files filename = dev.files filename

theorem erased_received (env : Env) (a : Attempt) (st : St) : Erased (received env a st).dev := by
  intro filename htracked
  rw [received, St.onDev_dev]
  by_cases hlist : filename = tr181FileList
  · rw [hlist, Device.remove_files_self]
  · rw [Device.remove_files_of_ne hlist]
    exact Device.cleanAllFile_files (htracked.imp_right fun h => h.resolve_right hlist)

theorem files_replied (env : Env) (a : Attempt) (st : St) :
    (replied env a st).dev.files = st.dev.files := by
  obtain ⟨_, _, _, _, hreplied, hfiles, -⟩ := replied_spec env a st
  rw [hreplied]
  exact hfiles

/-- Storing the outcome of a failed apply step writes no file. -/
theorem files_storeOutcome (env : Env) (header : Str) (st : St) :
    (storeOutcome env header .failure st).dev.files = st.dev.files := by
  simp only [storeOutcome, storeXconfEndpointMetadata, updateTimeInDB, updateHashInDB, St.log_dev,
    St.set_files, St.onProc_dev]

/-- An apply step succeeds, crashes, or leaves the files alone. -/
theorem applyResponse_files (env : Env) (a : Attempt) (st : St) :
    (∃ dev, .applied a.body dev ∈ (applyResponse env a st).state.events) ∨
      (∃ t, applyResponse env a st = .crash t) ∨
      (applyResponse env a st).state.dev.files = st.dev.files := by
  have hstep := processJsonResponse_step env a.body st
  generalize hjson : processJsonResponse env a.body st = out at hstep
  cases hstep with
  | rejected =>
      refine .inr (.inr ?_)
      rw [applyResponse, hjson]
      exact files_storeOutcome env a.header _
  | crashed => exact .inr (.inl ⟨_, by rw [applyResponse, hjson, Exec.bind_crash]⟩)
  | applied =>
      obtain ⟨t, hsuccess⟩ : ∃ t, applyResponse env a st = .ok (some .success) t :=
        ⟨_, by rw [applyResponse, hjson, Exec.bind_ok, if_pos rfl]⟩
      left
      rw [hsuccess]
      exact applied_mem_of_applyResponse hsuccess

/-! ### The run -/

/-- How a run and its files stand, seen from the device it started on. A response that is not found or a
successful apply step puts the run outside what is asked about. -/
inductive FilesAt (attempts : Nat → Attempt) (dev : Device) (i : Nat) (st : St) : Prop where
  | notFound (curlRetCode : Int) (hmem : .response curlRetCode 404 ∈ st.events)
  | kept (hretried : ∀ j < i, (attempts j).Retried) (hsame : SameFiles dev st.dev)
  | erased (hnew : NewResponse attempts) (herased : Erased st.dev)

theorem FilesAt.asked {attempts : Nat → Attempt} {dev : Device} {i : Nat} {s t : St}
    (h : FilesAt attempts dev i s) (hretried : (attempts i).Retried) (hevents : s.events ⊆ t.events)
    (hfiles : t.dev.files = s.dev.files) : FilesAt attempts dev (i + 1) t := by
  cases h with
  | notFound curlRetCode hmem => exact .notFound curlRetCode (hevents hmem)
  | kept hbefore hsame =>
      refine .kept (fun j hj => ?_) fun filename htracked => ?_
      · obtain hj | rfl : j < i ∨ j = i := by omega
        · exact hbefore j hj
        · exact hretried
      · rw [hfiles]
        exact hsame filename htracked
  | erased hnew herased =>
      refine .erased hnew fun filename htracked => ?_
      rw [hfiles]
      exact herased filename htracked

/-- A new response erases the files. -/
theorem FilesAt.received {attempts : Nat → Attempt} {dev : Device} {i : Nat} {s : St}
    (h : FilesAt attempts dev i s) (hi : i < retryCount) (hanswered : (attempts i).Answered)
    (env : Env) : FilesAt attempts dev (i + 1) (received env (attempts i) s) := by
  have herased := erased_received env (attempts i) s
  cases h with
  | notFound curlRetCode hmem =>
      obtain ⟨_, _, _, _, hasked⟩ := asked_received env (attempts i) s
      refine .notFound curlRetCode ?_
      rw [hasked.events]
      exact List.mem_append_left _ hmem
  | kept hbefore _ => exact .erased ⟨i, hi, hbefore, hanswered⟩ herased
  | erased hnew _ => exact .erased hnew herased

theorem FilesAt.preProcessed {attempts : Nat → Attempt} {dev : Device} {i : Nat} {s : St}
    (h : FilesAt attempts dev i s) (a : Attempt) (p : Processor) :
    FilesAt attempts dev i (preProcessed a s p) := by
  cases h with
  | notFound curlRetCode hmem => exact .notFound curlRetCode (List.mem_append_left _ hmem)
  | kept hretried hsame => exact .kept hretried hsame
  | erased hnew herased => exact .erased hnew herased

theorem FilesAt.onProc {attempts : Nat → Attempt} {dev : Device} {i : Nat} {s : St}
    (h : FilesAt attempts dev i s) (f : Processor → Processor) :
    FilesAt attempts dev i (s.onProc f) := by
  cases h with
  | notFound curlRetCode hmem => exact .notFound curlRetCode hmem
  | kept hretried hsame => exact .kept hretried hsame
  | erased hnew herased => exact .erased hnew herased

theorem Attempt.Answered.not_retried {a : Attempt} (h : a.Answered) : ¬ a.Retried := by
  intro hretried
  cases hretried with
  | noHashParam _ _ hhash =>
      rw [h.hashParam] at hhash
      cases hhash
  | failed _ hfailed =>
      rcases hfailed with hcurl | hhttp
      · exact hcurl h.curl
      · exact hhttp h.http

/-- A run whose first `i` attempts are retried receives nothing when the next one ends it. -/
theorem not_newResponse {attempts : Nat → Attempt} {i : Nat}
    (hretried : ∀ j < i, (attempts j).Retried)
    (hstop : i < retryCount → ¬ (attempts i).Retried ∧ ¬ (attempts i).Answered) :
    ¬ NewResponse attempts := by
  rintro ⟨k, hk, hbefore, hanswered⟩
  obtain hlt | rfl | hgt := Nat.lt_trichotomy k i
  · exact hanswered.not_retried (hretried k hlt)
  · exact (hstop hk).2 hanswered
  · exact (hstop (by omega)).1 (hbefore i hgt)

/-- How the files stand when a run is over; one that has crashed says nothing about erased files. -/
inductive FilesAfter (attempts : Nat → Attempt) (dev : Device) (returned : Prop) (st : St) : Prop where
  | notFound (curlRetCode : Int) (hmem : .response curlRetCode 404 ∈ st.events)
  | applied (body : Body) (dev' : Device) (hmem : .applied body dev' ∈ st.events)
  | kept (hnone : ¬ NewResponse attempts) (hsame : SameFiles dev st.dev)
  | erased (hnew : NewResponse attempts) (herased : returned → Erased st.dev)

/-- The run ends here, without a response in this pass. -/
theorem FilesAt.stopped {attempts : Nat → Attempt} {dev : Device} {i : Nat} {s t : St}
    (h : FilesAt attempts dev i s)
    (hstop : i < retryCount → ¬ (attempts i).Retried ∧ ¬ (attempts i).Answered)
    (hevents : s.events ⊆ t.events) (hfiles : t.dev.files = s.dev.files) :
    FilesAfter attempts dev True t := by
  cases h with
  | notFound curlRetCode hmem => exact .notFound curlRetCode (hevents hmem)
  | kept hretried hsame =>
      refine .kept (not_newResponse hretried hstop) fun filename htracked => ?_
      rw [hfiles]
      exact hsame filename htracked
  | erased hnew herased =>
      refine .erased hnew fun _ filename htracked => ?_
      rw [hfiles]
      exact herased filename htracked

/-- The run ends behind a new response. -/
theorem FilesAt.over {attempts : Nat → Attempt} {dev : Device} {i : Nat} {s t : St}
    {returned : Prop} (h : FilesAt attempts dev (i + 1) s) (hanswered : (attempts i).Answered)
    (hevents : s.events ⊆ t.events) (hfiles : returned → t.dev.files = s.dev.files) :
    FilesAfter attempts dev returned t := by
  cases h with
  | notFound curlRetCode hmem => exact .notFound curlRetCode (hevents hmem)
  | kept hretried => exact absurd (hretried i (Nat.lt_succ_self i)) hanswered.not_retried
  | erased hnew herased =>
      refine .erased hnew fun hreturned filename htracked => ?_
      rw [hfiles hreturned]
      exact herased filename htracked

/-- The passes that go round again. -/
theorem filesAt_round {env : Env} {attempts : Nat → Attempt} {dev : Device} {i : Nat} {s t : St}
    (h : FilesAt attempts dev i s) (hi : i < retryCount) {out : Exec St (Option ReturnCode)}
    (hpass : Pass env (attempts i) s out) (hout : out = .ok none t) :
    FilesAt attempts dev (i + 1) t := by
  obtain ⟨_, _, _, _, hreplied⟩ := asked_replied env (attempts i) s
  cases hpass with
  | noBuffers | notModified | crashed => cases hout
  | noHashParam hdwnLoc hheader hhash =>
      cases hout
      exact h.asked (.noHashParam hdwnLoc hheader hhash) (List.Subset.refl _) rfl
  | notFound _ _ hhttp =>
      cases hout
      refine .notFound (attempts i).curlRetCode ?_
      rw [St.onDev_events, hreplied.events, hhttp]
      simp
  | failed halloc hfailed hhttp =>
      cases hout
      refine h.asked (.failed halloc hfailed hhttp) ?_ (files_replied ..)
      rw [hreplied.events]
      exact List.subset_append_left ..
  | redirected p hanswered =>
      cases hout
      exact (h.received hi hanswered env).preProcessed (attempts i) p
  | resent p hanswered =>
      cases hout
      exact ((h.received hi hanswered env).preProcessed (attempts i) p).onProc _
  | applied => exact absurd hout.symm applyResponse_ne_none

/-- The passes that end the run. -/
theorem filesAfter_pass {env : Env} {attempts : Nat → Attempt} {dev : Device} {i : Nat} {s : St}
    (h : FilesAt attempts dev i s) (hi : i < retryCount) {out : Exec St (Option ReturnCode)}
    (hpass : Pass env (attempts i) s out) (hout : ∀ t, out ≠ .ok none t) :
    FilesAfter attempts dev out.Returned out.state := by
  obtain ⟨_, _, _, _, hreplied⟩ := asked_replied env (attempts i) s
  cases hpass with
  | noHashParam | notFound | failed | redirected | resent => exact absurd rfl (hout _)
  | noBuffers halloc =>
      have hmissing : ¬ ((attempts i).dwnLocAllocated = true ∧
          (attempts i).headerDwnLocAllocated = true) := by
        rcases halloc with halloc | halloc
        · simp [halloc]
        · simp [halloc]
      refine h.stopped (fun _ => ⟨?_, ?_⟩) (List.Subset.refl _) rfl
      · intro hretried
        cases hretried with
        | noHashParam hdwnLoc hheader => exact hmissing ⟨hdwnLoc, hheader⟩
        | failed halloc => exact hmissing ⟨halloc.dwnLoc, halloc.headerDwnLoc⟩
      · intro hanswered
        exact hmissing ⟨hanswered.dwnLoc, hanswered.headerDwnLoc⟩
  | notModified halloc hhttp =>
      refine h.stopped (fun _ => ⟨?_, ?_⟩) ?_ (files_replied ..)
      · intro hretried
        cases hretried with
        | noHashParam _ _ hhash =>
            rw [halloc.hashParam] at hhash
            cases hhash
        | failed _ _ hnot => exact hnot hhttp
      · intro hanswered
        have hcode := hanswered.http
        rw [hhttp] at hcode
        cases hcode
      · rw [Exec.state_ok, hreplied.events]
        exact List.subset_append_left ..
  | crashed hanswered =>
      exact (h.received hi hanswered env).over hanswered (List.Subset.refl _) fun _ => rfl
  | applied p hanswered =>
      have hnext := (h.received hi hanswered env).preProcessed (attempts i) p
      generalize preProcessed (attempts i) (received env (attempts i) s) p = u at hnext ⊢
      obtain ⟨es, hes, -⟩ := (applyFrame_applyResponse env (attempts i) u).events
      have hevents : u.events ⊆ (applyResponse env (attempts i) u).state.events := by
        rw [hes, St.log_events, List.append_assoc]
        exact List.subset_append_left ..
      obtain ⟨dev', hmem⟩ | ⟨t, hcrash⟩ | hfiles := applyResponse_files env (attempts i) u
      · exact .applied _ dev' hmem
      · refine hnext.over hanswered hevents fun hreturned => ?_
        rw [hcrash] at hreturned
        exact hreturned.elim
      · exact hnext.over hanswered hevents fun _ => hfiles

/-- How the files stand after every run. -/
theorem run_filesAfter (env : Env) (attempts : Nat → Attempt) {st : St} (hfresh : Fresh st)
    (hopen : env.directBlocked = false) :
    FilesAfter attempts st.dev (processRuntimeFeatureControlReq env attempts st).Returned
      (processRuntimeFeatureControlReq env attempts st).state := by
  refine run_rule (P := fun i s => Unmixed s ∧ FilesAt attempts st.dev i s)
    (Q := fun out => FilesAfter attempts st.dev out.Returned out.state)
    ⟨hfresh.unmixed, .kept (fun j hj => absurd hj (Nat.not_lt_zero j)) fun _ _ => rfl⟩
    (fun i s h => h.1.flag) ?_ ?_ ?_ ?_ ?_
  · rintro i s s' hi ⟨hs, hfiles⟩ hpass
    exact ⟨unmixed_round hs hpass, filesAt_round hfiles hi hpass rfl⟩
  · intro _ hblocked
    rw [hopen] at hblocked
    cases hblocked
  · rintro s ⟨-, hfiles⟩
    exact hfiles.stopped (fun h => absurd h (Nat.lt_irrefl _)) (List.Subset.refl _) rfl
  · rintro i s r t hi ⟨-, hfiles⟩ hpass
    exact filesAfter_pass hfiles hi hpass fun t' h => by cases h
  · rintro i s t hi ⟨-, hfiles⟩ hpass
    exact filesAfter_pass hfiles hi hpass fun t' h => by cases h

/-- **When a run that applies nothing keeps the persisted files.** It does so when it receives no new
response; behind one, a run that returns has kept them only where there were none. -/
theorem run_keepsFiles_iff (env : Env) (attempts : Nat → Attempt) {st : St} (hfresh : Fresh st)
    (happlied : ∀ body dev, .applied body dev ∉
      (processRuntimeFeatureControlReq env attempts st).state.events)
    (hfound : ∀ curlRetCode, .response curlRetCode 404 ∉
      (processRuntimeFeatureControlReq env attempts st).state.events) :
    (env.directBlocked = true ∨ ¬ NewResponse attempts →
      SameFiles st.dev (processRuntimeFeatureControlReq env attempts st).state.dev) ∧
    ∀ rc t, processRuntimeFeatureControlReq env attempts st = .ok rc t →
      (SameFiles st.dev t.dev ↔
        env.directBlocked = true ∨ ¬ NewResponse attempts ∨ Erased st.dev) := by
  cases hblocked : env.directBlocked with
  | true =>
      have hrun : processRuntimeFeatureControlReq env attempts st =
          .ok .failure (st.onProc chooseSelectOpt) := by
        rw [processRuntimeFeatureControlReq, hblocked, if_pos rfl]
      rw [hrun]
      refine ⟨fun _ _ _ => rfl, ?_⟩
      rintro rc t ⟨⟩
      simp only [true_or, iff_true]
      exact fun _ _ => rfl
  | false =>
      have hafter := run_filesAfter env attempts hfresh hblocked
      generalize processRuntimeFeatureControlReq env attempts st = out at happlied hfound hafter ⊢
      simp only [Bool.false_eq_true, false_or]
      cases hafter with
      | notFound curlRetCode hmem => exact absurd hmem (hfound curlRetCode)
      | applied body dev hmem => exact absurd hmem (happlied body dev)
      | kept hnone hsame =>
          refine ⟨fun _ => hsame, ?_⟩
          rintro rc t rfl
          exact iff_of_true hsame (.inl hnone)
      | erased hnew herased =>
          refine ⟨fun hnone => absurd hnew hnone, ?_⟩
          rintro rc t rfl
          have hgone := herased trivial
          constructor
          · intro hsame
            exact .inr fun filename htracked => (hsame filename htracked).symm.trans
              (hgone filename htracked)
          · rintro (hnone | hstart)
            · exact absurd hnew hnone
            · exact fun filename htracked => (hgone filename htracked).trans
                (hstart filename htracked).symm

/-- A successful apply step, or a response that is not found. -/
def Event.excuses : Event → Bool
  | .applied _ _ => true
  | .response _ httpCode => httpCode == 404
  | _ => false

theorem not_mem_of_excuses {es : List Event} (h : es.all (fun e => !e.excuses) = true) :
    (∀ body dev, .applied body dev ∉ es) ∧ ∀ curlRetCode, .response curlRetCode 404 ∉ es := by
  rw [List.all_eq_true] at h
  refine ⟨fun body dev hmem => ?_, fun curlRetCode hmem => ?_⟩
  · cases h _ hmem
  · cases h _ hmem

/-- A device that has synced before. -/
def St.synced : St where
  proc := .fresh
  dev := Device.blank.overwrite varFile "export RFC_ENABLE_A=true\n".toList
  events := []

/-- A server that answers 304 leaves the variable file as it is. -/
theorem run_keepsFiles_notModified :
    SameFiles St.synced.dev
      (processRuntimeFeatureControlReq .plain (fun _ => .answered 304 none) .synced).state.dev := by
  have hquiet : (processRuntimeFeatureControlReq .plain (fun _ => .answered 304 none)
      .synced).state.events.all (fun e => !e.excuses) = true := by rfl
  obtain ⟨happlied, hfound⟩ := not_mem_of_excuses hquiet
  refine (run_keepsFiles_iff .plain (fun _ => .answered 304 none) ⟨rfl, rfl, rfl⟩ happlied hfound).1
    (.inr ?_)
  rintro ⟨i, -, -, hanswered⟩
  cases hanswered.http

/-- A server that answers 200 with a body that does not parse. -/
theorem not_run_keepsFiles :
    ¬ ∀ env attempts st, Fresh st →
      (∀ body dev, .applied body dev ∉
        (processRuntimeFeatureControlReq env attempts st).state.events) →
      (∀ curlRetCode, .response curlRetCode 404 ∉
        (processRuntimeFeatureControlReq env attempts st).state.events) →
      SameFiles st.dev (processRuntimeFeatureControlReq env attempts st).state.dev := by
  intro h
  have hquiet : (processRuntimeFeatureControlReq .plain (fun _ => .answered 200 none)
      .synced).state.events.all (fun e => !e.excuses) = true := by rfl
  obtain ⟨happlied, hfound⟩ := not_mem_of_excuses hquiet
  have hsame := h .plain (fun _ => .answered 200 none) .synced ⟨rfl, rfl, rfl⟩ happlied hfound
    varFile (by decide)
  cases hsame

end RfcMgr
