import RfcMgr.OwnResponse

/-! The pass of a run that applies a response: the state it starts from, the state its parameters leave,
and the end of the run behind it. -/

namespace RfcMgr

/-- The state in which the parameters of the response are dealt with. -/
def applyStart (env : Env) (a : Attempt) (s : St) (p : Processor) (features : List Json) : St :=
  featuresWritten features a.body (preProcessed a (received env a s) p)

/-- The run applies the response of its `i`-th pass, which starts in `s`; behind the parameters it is
in `t`. -/
structure AppliesAt (env : Env) (attempts : Nat → Attempt) (st : St) (i : Nat) (s : St)
    (p : Processor) (features : List Json) (t : St) : Prop where
  makes : MakesPass env attempts st i s
  answered : (attempts i).Answered
  pre : preProcessJsonResponse env (attempts i).body (received env (attempts i) s).proc = some p
  state : p.rfcState ≠ .redo ∧ p.rfcState ≠ .redoWithValidData
  body : (attempts i).body.features = some features
  part : processXconfResponseConfigDataPart env features (applyStart env (attempts i) s p features) =
    .ok () t

/-- `ProcessJsonResponse` has returned. -/
def appliedState (a : Attempt) (features : List Json) (dev : Device) (t : St) : St :=
  (t.onDev fun _ => featuresListed features dev t).log (.applied a.body (featuresListed features dev t))

@[simp] theorem appliedState_proc (a : Attempt) (features : List Json) (dev : Device) (t : St) :
    (appliedState a features dev t).proc = t.proc := rfl

section

variable {env : Env} {attempts : Nat → Attempt} {st : St}

theorem MakesPass.unmixed {i : Nat} {s : St} (h : MakesPass env attempts st i s) (hfresh : Fresh st) :
    Unmixed s :=
  h.invariant hfresh.unmixed (fun _ hs => hs.flag) fun _ _ _ hs hpass => unmixed_round hs hpass

variable {i : Nat} {s t : St} {p : Processor} {features : List Json}

theorem AppliesAt.processJsonResponse_eq (h : AppliesAt env attempts st i s p features t) :
    processJsonResponse env (attempts i).body
        (preProcessed (attempts i) (received env (attempts i) s) p) =
      .ok .success (appliedState (attempts i) features
        (preProcessed (attempts i) (received env (attempts i) s) p).dev t) := by
  have hstep := processJsonResponse_step env (attempts i).body
    (preProcessed (attempts i) (received env (attempts i) s) p)
  generalize processJsonResponse env (attempts i).body
    (preProcessed (attempts i) (received env (attempts i) s) p) = out at hstep ⊢
  cases hstep with
  | rejected hfeatures => cases hfeatures.symm.trans h.body
  | crashed hfeatures hpart =>
      obtain rfl := Option.some.inj (h.body.symm.trans hfeatures)
      cases hpart.symm.trans h.part
  | applied hfeatures hpart =>
      obtain rfl := Option.some.inj (h.body.symm.trans hfeatures)
      obtain ⟨-, rfl⟩ := Exec.ok.inj (hpart.symm.trans h.part)
      rfl

theorem AppliesAt.requestPass_eq (h : AppliesAt env attempts st i s p features t)
    (hflag : s.proc.urlValidationInProgress = false) :
    requestPass env attempts i s = applyResponse env (attempts i)
      (preProcessed (attempts i) (received env (attempts i) s) p) := by
  have hpass : Pass env (attempts i) s (requestPass env attempts i s) := requestPass_pass hflag
  generalize requestPass env attempts i s = out at hpass ⊢
  obtain ⟨⟨hdwnLoc, hheader, hhash⟩, hcurl, hhttp⟩ := h.answered
  cases hpass with
  | noBuffers halloc => simp [hdwnLoc, hheader] at halloc
  | noHashParam _ _ hnone => cases hhash.symm.trans hnone
  | notFound _ _ hnone => cases hhttp.symm.trans hnone
  | notModified _ hnone => cases hhttp.symm.trans hnone
  | failed _ hfailed => exact absurd hfailed (by simp [hcurl, hhttp])
  | crashed _ hpre => cases hpre.symm.trans h.pre
  | redirected p' _ hpre hstate =>
      obtain rfl := Option.some.inj (hpre.symm.trans h.pre)
      exact absurd hstate h.state.1
  | resent p' _ hpre hstate =>
      obtain rfl := Option.some.inj (hpre.symm.trans h.pre)
      exact absurd hstate h.state.2
  | applied p' _ hpre =>
      obtain rfl := Option.some.inj (hpre.symm.trans h.pre)
      rfl

/-- **The end of the run** that applies a response. -/
theorem AppliesAt.run_eq (h : AppliesAt env attempts st i s p features t) (hfresh : Fresh st) :
    requestPass env attempts i s = .ok (some .success) (storeOutcome env (attempts i).header .success
        (appliedState (attempts i) features
          (preProcessed (attempts i) (received env (attempts i) s) p).dev t)) ∧
      processRuntimeFeatureControlReq env attempts st =
        .ok .success (storeOutcome env (attempts i).header .success (appliedState (attempts i) features
          (preProcessed (attempts i) (received env (attempts i) s) p).dev t)) := by
  have hpass := h.requestPass_eq (h.makes.unmixed hfresh).flag
  rw [applyResponse, h.processJsonResponse_eq, Exec.bind_ok, if_pos rfl] at hpass
  refine ⟨hpass, ?_⟩
  have hlt : i < 0 + retryCount := by simpa using h.makes.lt
  rw [processRuntimeFeatureControlReq]
  simp only [h.makes.unblocked, Bool.false_eq_true, if_false]
  exact h.makes.passes.retry_eq hlt hpass

/-- The run ends in the state of that pass. -/
theorem AppliesAt.run_state (h : AppliesAt env attempts st i s p features t) (hfresh : Fresh st) :
    (processRuntimeFeatureControlReq env attempts st).state = (requestPass env attempts i s).state := by
  obtain ⟨hpass, hrun⟩ := h.run_eq hfresh
  rw [hpass, hrun, Exec.state_ok, Exec.state_ok]

/-- The parameters of a run are filled into an empty map. -/
theorem AppliesAt.map_eq (h : AppliesAt env attempts st i s p features t) (hfresh : Fresh st) :
    (applyStart env (attempts i) s p features).proc.rfcKeyAndValueMap = ∅ :=
  (((h.makes.unmixed hfresh).received env (attempts i)).preProcessed h.pre).map

/-- A pass that is answered and ends the run with `SUCCESS` has applied its response. -/
theorem MakesPass.appliesAt (hmakes : MakesPass env attempts st i s)
    (hflag : s.proc.urlValidationInProgress = false) (hanswered : (attempts i).Answered)
    (hvalue : (requestPass env attempts i s).value? = some (some .success)) :
    ∃ p features t, AppliesAt env attempts st i s p features t := by
  have hpass : Pass env (attempts i) s (requestPass env attempts i s) := requestPass_pass hflag
  obtain ⟨⟨hdwnLoc, hheader, -⟩, hcurl, hhttp⟩ := id hanswered
  generalize requestPass env attempts i s = out at hpass hvalue
  cases hpass with
  | noBuffers halloc => simp [hdwnLoc, hheader] at halloc
  | notModified _ hnone => cases hhttp.symm.trans hnone
  | noHashParam | notFound | failed | redirected | resent | crashed => cases hvalue
  | applied p hanswered hpre hstate =>
      have hstep := processJsonResponse_step env (attempts i).body
        (preProcessed (attempts i) (received env (attempts i) s) p)
      rw [applyResponse] at hvalue
      generalize processJsonResponse env (attempts i).body
        (preProcessed (attempts i) (received env (attempts i) s) p) = result at hstep hvalue
      cases hstep with
      | rejected | crashed => cases hvalue
      | @applied features t hfeatures hpart =>
          exact ⟨p, features, t, hmakes, hanswered, hpre, hstate, hfeatures, hpart⟩

end

/-! ### A sample run -/

/-- A device on which a response with the hash `h1` was applied before. -/
def St.hashed : St :=
  let rfcStore : Str → Option Str := fun key =>
    if key = rfcConfigSetHash then some "h1".toList
    else if key = xconfSelectorKeyStr then some "prod".toList else none
  ⟨{ Processor.fresh with accountId := "4812".toList }, { Device.blank with rfcStore := rfcStore }, []⟩

theorem fresh_hashed : Fresh .hashed := ⟨rfl, rfl, rfl⟩

/-- A response with these features and the hash `H1`. -/
def hashedAttempt (features : List Json) : Attempt :=
  { Attempt.answered 200 (responseBody features) with header := "configSetHash: H1\r\n".toList }

theorem answered_hashedAttempt (features : List Json) : (hashedAttempt features).Answered :=
  ⟨⟨rfl, rfl, rfl⟩, rfl, rfl⟩

theorem makesPass_hashed {env : Env} (hunblocked : env.directBlocked = false) (features : List Json) :
    MakesPass env (fun _ => hashedAttempt features) .hashed 0 (St.hashed.onProc chooseSelectOpt) :=
  ⟨hunblocked, Nat.zero_lt_succ _, .refl _ _⟩

end RfcMgr
