import RfcMgr.RequestPass

/-! The states of a run: how often it asks, redirects, resends and applies, whatever the server sends. -/

namespace RfcMgr

def Event.isRequest : Event → Bool
  | .request _ _ _ _ => true
  | _ => false

def Event.isApply : Event → Bool
  | .apply _ => true
  | _ => false

/-- `PreProcessJsonResponse` leaves the run in state `s`. -/
def Event.enters (s : RfcState) : Event → Bool
  | .preProcessed _ _ after => after.rfcState == s
  | _ => false

theorem Event.OfApply.quiet {map : ConfigMap} {body : Body} {e : Event} (h : e.OfApply map body) :
    e.isRequest = false ∧ e.isApply = false ∧ ∀ s, e.enters s = false := by
  rcases h with h | ⟨dev, rfl⟩ | ⟨selector, url, rfl⟩
  · cases e with
    | validationRequest | param | fill => exact ⟨rfl, rfl, fun _ => rfl⟩
    | request | response | preProcessed | apply | applied | stored => exact h.elim
  · exact ⟨rfl, rfl, fun _ => rfl⟩
  · exact ⟨rfl, rfl, fun _ => rfl⟩

/-- A processor as `InitializeRuntimeFeatureControlProcessor` leaves it, and an empty trace. -/
structure Entry (st : St) : Prop where
  state : st.proc.rfcState = .init ∨ st.proc.rfcState = .local
  flag : st.proc.urlValidationInProgress = false
  events : st.events = []

/-- The states a pass can start in. -/
def LoopReady (p : Processor) : Prop :=
  p.rfcState = .init ∨ p.rfcState = .local ∨ p.rfcState = .redo ∧ p.isFirstRequest = false

/-- How many more times the request can be sent again. -/
def redosLeft (p : Processor) : Nat :=
  if p.rfcState = .redo then 0 else if p.isFirstRequest then 2
  else if p.rfcState = .init then 1 else 0

theorem redosLeft_le (p : Processor) : redosLeft p ≤ 2 := by
  unfold redosLeft
  split
  · omega
  · split
    · omega
    · split <;> omega

/-! ### One pass -/

/-- Only a run in `Init` is redirected, and afterwards no response counts as the first one. -/
theorem preProcess_redo {env : Env} {body : Body} {p p' : Processor} (hready : LoopReady p)
    (h : preProcessJsonResponse env body p = some p') (hredo : p'.rfcState = .redo) :
    p.rfcState = .init ∧ p'.isFirstRequest = false := by
  obtain ⟨features, map, -, -, hread, rfl⟩ | ⟨-, -, rfl⟩ | ⟨rfl, hkept⟩ :=
    preProcessJsonResponse_cases h
  · obtain ⟨_, _, state, _, _, _, url, heq, hnext, -⟩ :=
      preProcessFilled_spec env { p with rfcKeyAndValueMap := map }
    rw [heq] at hredo ⊢
    refine ⟨?_, rfl⟩
    cases hnext with
    | resend => cases hredo
    | localOverride hinit => exact hinit
    | select hinit => exact hinit
    | keep hinit =>
        have hfirst : p.isFirstRequest = true := hread.resolve_left hinit
        have hstate : p.rfcState = .redo := hredo
        obtain hready | hready | ⟨-, hnot⟩ := hready
        · exact hready
        · rw [hready] at hstate
          cases hstate
        · rw [hnot] at hfirst
          cases hfirst
  · cases hredo
  · have hfirst := hkept hredo
    obtain hready | hready | ⟨-, hnot⟩ := hready
    · rw [hready] at hredo
      cases hredo
    · rw [hready] at hredo
      cases hredo
    · rw [hnot] at hfirst
      cases hfirst

/-- Only the first response leads to a resend. -/
theorem preProcess_resend {env : Env} {body : Body} {p p' : Processor} (hready : LoopReady p)
    (h : preProcessJsonResponse env body p = some p') (hresend : p'.rfcState = .redoWithValidData) :
    p.isFirstRequest = true ∧ p'.isFirstRequest = false := by
  have hnot : p.rfcState ≠ .redoWithValidData := by
    obtain hready | hready | ⟨hready, -⟩ := hready
    · simp [hready]
    · simp [hready]
    · simp [hready]
  obtain ⟨features, map, -, -, hread, rfl⟩ | ⟨-, -, rfl⟩ | ⟨rfl, -⟩ :=
    preProcessJsonResponse_cases h
  · obtain ⟨_, _, state, _, _, _, url, heq, hnext, -⟩ :=
      preProcessFilled_spec env { p with rfcKeyAndValueMap := map }
    rw [heq] at hresend ⊢
    refine ⟨?_, rfl⟩
    cases hnext with
    | resend hfirst => exact hfirst
    | localOverride => cases hresend
    | select =>
        simp only at hresend
        split at hresend
        · cases hresend
        · cases hresend
    | keep => exact absurd hresend hnot
  · cases hresend
  · exact absurd hresend hnot

/-- A response whose configData members are strings does not crash the first look at it. -/
theorem preProcess_ne_none {env : Env} {body : Body} {p : Processor}
    (hstrings : ∀ features, body.features = some features → StringMembers features) :
    preProcessJsonResponse env body p ≠ none := by
  simp only [preProcessJsonResponse]
  split
  · split
    · simp
    next features hfeatures =>
      have hmap : createConfigDataValueMap features p.rfcKeyAndValueMap = some _ :=
        createConfigDataValueMap_eq_some.mpr ⟨(hstrings features hfeatures).visited, rfl⟩
      simp [hmap]
  · split
    · simp
    · simp

/-! ### The invariant of the loop -/

/-- What holds at the head of pass `i`. -/
structure Waiting (i : Nat) (st : St) : Prop where
  ready : LoopReady st.proc
  flag : st.proc.urlValidationInProgress = false
  requests : st.events.countP Event.isRequest ≤ i
  applies : st.events.countP Event.isApply = 0
  redo : st.events.countP (Event.enters .redo) + (if st.proc.rfcState = .redo then 0 else 1) ≤ 1
  resend : st.events.countP (Event.enters .redoWithValidData) +
    (if st.proc.isFirstRequest then 1 else 0) ≤ 1

theorem Entry.waiting {st : St} (h : Entry st) : Waiting 0 (st.onProc chooseSelectOpt) where
  ready := h.state.imp id .inl
  flag := h.flag
  requests := by rw [St.onProc_events, h.events, List.countP_nil]
  applies := by rw [St.onProc_events, h.events, List.countP_nil]
  redo := by
    rw [St.onProc_events, h.events, List.countP_nil]
    split <;> omega
  resend := by
    rw [St.onProc_events, h.events, List.countP_nil]
    split <;> omega

/-- Asking keeps the invariant. -/
theorem Waiting.asked {i : Nat} {s t : St} {es : List Event} (h : Waiting i s) (hasked : Asked s t es)
    (hes : es = [] ∨ ∃ url requestUrl hash time c http,
      es = [.request url requestUrl hash time, .response c http]) : Waiting (i + 1) t := by
  have hcounts : es.countP Event.isRequest ≤ 1 ∧ es.countP Event.isApply = 0 ∧
      ∀ state, es.countP (Event.enters state) = 0 := by
    rcases hes with rfl | ⟨url, requestUrl, hash, time, c, http, rfl⟩
    · exact ⟨by decide, rfl, fun _ => rfl⟩
    · exact ⟨Nat.le_refl 1, rfl, fun _ => rfl⟩
  obtain ⟨hrequests, happlies, henters⟩ := hcounts
  obtain ⟨url, b, hproc⟩ := hasked.proc
  refine ⟨?_, ?_, ?_, ?_, ?_, ?_⟩
  · rw [hproc]
    exact h.ready
  · rw [hproc]
    exact h.flag
  · have := h.requests
    rw [hasked.events, List.countP_append]
    omega
  · rw [hasked.events, List.countP_append, h.applies, happlies]
  · rw [hasked.events, List.countP_append, henters, hproc]
    exact h.redo
  · rw [hasked.events, List.countP_append, henters, hproc]
    exact h.resend

theorem waiting_received {i : Nat} (env : Env) (a : Attempt) {st : St} (h : Waiting i st) :
    Waiting (i + 1) (received env a st) := by
  obtain ⟨url, requestUrl, hash, time, hasked⟩ := asked_received env a st
  exact h.asked hasked (.inr ⟨_, _, _, _, _, _, rfl⟩)

/-- Going round again after a redirection or with new data keeps it. -/
theorem Waiting.preProcessed {i : Nat} {env : Env} {a : Attempt} {s : St} {p : Processor}
    {next : RfcState} (h : Waiting i s)
    (hpre : preProcessJsonResponse env a.body s.proc = some p)
    (hstate : p.rfcState = .redo ∧ next = .redo ∨ p.rfcState = .redoWithValidData ∧ next = .init) :
    Waiting i ((preProcessed a s p).onProc fun p => { p with rfcState := next }) := by
  have hflag : p.urlValidationInProgress = false := (preProcess_flag hpre).trans h.flag
  have hredo := h.redo
  have hresend := h.resend
  refine ⟨?_, hflag, ?_, ?_, ?_, ?_⟩
  · rcases hstate with ⟨hp, rfl⟩ | ⟨hp, rfl⟩
    · exact .inr (.inr ⟨rfl, (preProcess_redo h.ready hpre hp).2⟩)
    · exact .inl rfl
  · simpa [RfcMgr.preProcessed, List.countP_append, Event.isRequest] using h.requests
  · simpa [RfcMgr.preProcessed, List.countP_append, Event.isApply] using h.applies
  · simp only [RfcMgr.preProcessed, St.onProc_events, St.onProc_proc, List.countP_append,
      List.countP_singleton, Event.enters, beq_iff_eq]
    rcases hstate with ⟨hp, rfl⟩ | ⟨hp, rfl⟩
    · have hinit := (preProcess_redo h.ready hpre hp).1
      simp only [hinit, reduceCtorEq, if_false] at hredo
      simp only [hp, if_true]
      omega
    · -- only a first response leads here, and a redirected run has had it
      have hfirst := (preProcess_resend h.ready hpre hp).1
      have hnot : s.proc.rfcState ≠ .redo := by
        intro hs
        obtain hr | hr | ⟨-, hr⟩ := h.ready
        · rw [hs] at hr
          cases hr
        · rw [hs] at hr
          cases hr
        · rw [hfirst] at hr
          cases hr
      simp only [hnot, if_false] at hredo
      simp only [hp, reduceCtorEq, if_false]
      omega
  · simp only [RfcMgr.preProcessed, St.onProc_events, St.onProc_proc, List.countP_append,
      List.countP_singleton, Event.enters, beq_iff_eq]
    rcases hstate with ⟨hp, rfl⟩ | ⟨hp, rfl⟩
    · have hnext := (preProcess_redo h.ready hpre hp).2
      simp only [hp, hnext, reduceCtorEq, Bool.false_eq_true, if_false]
      omega
    · obtain ⟨hfirst, hnext⟩ := preProcess_resend h.ready hpre hp
      simp only [hfirst, if_true] at hresend
      simp only [hp, hnext, Bool.false_eq_true, if_true, if_false]
      omega

/-- A pass keeps the invariant up to its end or up to the apply step. -/
theorem waiting_pass {env : Env} {a : Attempt} {i : Nat} {st : St} (h : Waiting i st)
    {out : Exec St (Option ReturnCode)} (hpass : Pass env a st out) :
    Waiting (i + 1) out.state ∨ ∃ p, p.rfcState ≠ .redo ∧ p.rfcState ≠ .redoWithValidData ∧
      out = applyResponse env a (preProcessed a (received env a st) p) := by
  have hreceived := waiting_received env a h
  obtain ⟨url, requestUrl, hash, time, hreplied⟩ := asked_replied env a st
  cases hpass with
  | noBuffers | noHashParam => exact .inl (h.asked (asked_resolved env a st) (.inl rfl))
  | notFound => exact .inl (h.asked (hreplied.onDev rfl) (.inr ⟨_, _, _, _, _, _, rfl⟩))
  | notModified | failed => exact .inl (h.asked hreplied (.inr ⟨_, _, _, _, _, _, rfl⟩))
  | crashed => exact .inl hreceived
  | redirected p hanswered hpre hstate =>
      have hnext := hreceived.preProcessed hpre (.inl ⟨hstate, rfl⟩)
      rw [← hstate] at hnext
      exact .inl hnext
  | resent p hanswered hpre hstate =>
      exact .inl (hreceived.preProcessed hpre (.inr ⟨hstate, rfl⟩))
  | applied p hanswered hpre hstate => exact .inr ⟨p, hstate.1, hstate.2, rfl⟩

theorem waiting_round {env : Env} {a : Attempt} {i : Nat} {s t : St} (h : Waiting i s)
    (hpass : Pass env a s (.ok none t)) : Waiting (i + 1) t := by
  obtain hround | ⟨p, -, -, hout⟩ := waiting_pass h hpass
  · exact hround
  · exact absurd hout applyResponse_ne_none

/-! ### The whole run -/

/-- A trace with at most three requests, one apply step and no request behind it, one redirection and
one resend. -/
structure Orderly (es : List Event) : Prop where
  requests : es.countP Event.isRequest ≤ retryCount
  applies : es.countP Event.isApply ≤ 1
  applyLast : es.Pairwise fun e f => e.isApply = true → f.isRequest = false
  redo : es.countP (Event.enters .redo) ≤ 1
  resend : es.countP (Event.enters .redoWithValidData) ≤ 1

theorem Waiting.orderly {i : Nat} {st : St} (h : Waiting i st) (hi : i ≤ retryCount) :
    Orderly st.events where
  requests := h.requests.trans hi
  applies := by rw [h.applies]; omega
  applyLast := by
    refine List.pairwise_of_forall_mem_list fun e he f _ happly => ?_
    exact absurd happly (List.countP_eq_zero.mp h.applies e he)
  redo := by have := h.redo; omega
  resend := by have := h.resend; omega

/-- An apply step keeps a trace orderly. -/
theorem Waiting.orderly_applied {i : Nat} {env : Env} {a : Attempt} {s : St} {p : Processor}
    (h : Waiting i s) (hi : i ≤ retryCount)
    (hstate : p.rfcState ≠ .redo ∧ p.rfcState ≠ .redoWithValidData) :
    Orderly (applyResponse env a (RfcMgr.preProcessed a s p)).state.events := by
  obtain ⟨es, hes, hall⟩ := (applyFrame_applyResponse env a (RfcMgr.preProcessed a s p)).events
  have hquiet : ∀ e ∈ es, e.isRequest = false ∧ e.isApply = false ∧ ∀ st, e.enters st = false :=
    fun e he => (hall e he).quiet
  have hcount : ∀ f : Event → Bool, (∀ e ∈ es, f e = false) → es.countP f = 0 := by
    intro f hf
    exact List.countP_eq_zero.mpr fun e he => by simp [hf e he]
  have hevents : (applyResponse env a (RfcMgr.preProcessed a s p)).state.events =
      s.events ++ ([.preProcessed a.body s.proc p, .apply a.body] ++ es) := by
    rw [hes]
    simp only [St.log_events, RfcMgr.preProcessed, List.append_assoc, List.cons_append,
      List.nil_append]
  have hold := h.orderly hi
  have hmid : ∀ f : Event → Bool, f (.preProcessed a.body s.proc p) = false →
      f (.apply a.body) = false →
      [Event.preProcessed a.body s.proc p, .apply a.body].countP f = 0 := by
    intro f hpre happly
    simp [hpre, happly]
  rw [hevents]
  refine ⟨?_, ?_, ?_, ?_, ?_⟩
  · rw [List.countP_append, List.countP_append, hmid _ rfl rfl, hcount _ fun e he => (hquiet e he).1]
    exact hold.requests
  · rw [List.countP_append, List.countP_append, h.applies, hcount _ fun e he => (hquiet e he).2.1]
    exact Nat.le_refl 1
  · rw [List.pairwise_append]
    refine ⟨hold.applyLast, ?_, ?_⟩
    · simp only [List.cons_append, List.nil_append, List.pairwise_cons]
      refine ⟨fun f _ hf => ?_, fun f hf _ => (hquiet f hf).1, ?_⟩
      · cases hf
      · refine List.pairwise_of_forall_mem_list fun e he f _ happly => ?_
        rw [(hquiet e he).2.1] at happly
        cases happly
    · intro e he f _ happly
      exact absurd happly (List.countP_eq_zero.mp h.applies e he)
  · rw [List.countP_append, List.countP_append, hmid _ (by simp [Event.enters, hstate.1]) rfl,
      hcount _ fun e he => (hquiet e he).2.2 _]
    exact hold.redo
  · rw [List.countP_append, List.countP_append, hmid _ (by simp [Event.enters, hstate.2]) rfl,
      hcount _ fun e he => (hquiet e he).2.2 _]
    exact hold.resend

/-- The download of the attempt returns `SUCCESS` with a body whose configData members are strings. -/
structure Attempt.Delivers (a : Attempt) : Prop extends Attempt.Answered a where
  strings : ∀ features, a.body.features = some features → StringMembers features

/-- A pass with a delivered response that goes round again uses up one resend. -/
theorem redosLeft_pass {env : Env} {a : Attempt} {i : Nat} {st st' : St} (h : Waiting i st)
    (hdelivers : a.Delivers) {out : Exec St (Option ReturnCode)} (hpass : Pass env a st out)
    (hout : out = .ok none st') : redosLeft st'.proc + 1 ≤ redosLeft st.proc := by
  have hreceived := waiting_received env a h
  have hleft : redosLeft (received env a st).proc = redosLeft st.proc := by
    obtain ⟨_, _, _, _, hasked⟩ := asked_received env a st
    obtain ⟨_, _, hproc⟩ := hasked.proc
    rw [hproc]
    rfl
  cases hpass with
  | noBuffers | notModified | crashed => cases hout
  | noHashParam _ _ hhash =>
      rw [hdelivers.hashParam] at hhash
      cases hhash
  | notFound _ _ hhttp =>
      rw [hdelivers.http] at hhttp
      cases hhttp
  | failed _ hfailed => exact absurd hfailed (by simp [hdelivers.curl, hdelivers.http])
  | redirected p hanswered hpre hstate =>
      cases hout
      have hinit := (preProcess_redo hreceived.ready hpre hstate).1
      rw [← hleft]
      have hafter : redosLeft p = 0 := if_pos hstate
      have hbefore : 1 ≤ redosLeft (received env a st).proc := by
        simp only [redosLeft, hinit, reduceCtorEq, if_false, if_true]
        split <;> omega
      change redosLeft p + 1 ≤ _
      omega
  | resent p hanswered hpre hstate =>
      cases hout
      obtain ⟨hfirst, hnext⟩ := preProcess_resend hreceived.ready hpre hstate
      rw [← hleft]
      have hafter : redosLeft { p with rfcState := .init } = 1 := by
        simp [redosLeft, hnext]
      have hbefore : redosLeft (received env a st).proc = 2 := by
        have hnot : (received env a st).proc.rfcState ≠ .redo := by
          obtain hr | hr | ⟨-, hr⟩ := hreceived.ready
          · simp [hr]
          · simp [hr]
          · rw [hfirst] at hr
            cases hr
        simp [redosLeft, hnot, hfirst]
      change redosLeft { p with rfcState := .init } + 1 ≤ _
      omega
  | applied =>
      obtain ⟨_, _, -, hstored⟩ := Exec.bind_eq_ok.mp hout
      cases hstored

/-- What the last pass of a run adds keeps the trace orderly, whatever the pass does. -/
theorem orderly_pass {env : Env} {a : Attempt} {i : Nat} {st : St} (h : Waiting i st)
    (hi : i < retryCount) {out : Exec St (Option ReturnCode)} (hpass : Pass env a st out) :
    Orderly out.state.events := by
  obtain hend | ⟨p, hredo, hresend, rfl⟩ := waiting_pass h hpass
  · exact hend.orderly hi
  · exact (waiting_received env a h).orderly_applied hi ⟨hredo, hresend⟩

/-- A pass breaks with `SUCCESS` after a 304 or a successful apply step only. -/
theorem success_pass {env : Env} {a : Attempt} {st t : St} {out : Exec St (Option ReturnCode)}
    (hpass : Pass env a st out) (hout : out = .ok (some .success) t) :
    (∃ curlRetCode, .response curlRetCode 304 ∈ t.events) ∨ ∃ body dev, .applied body dev ∈ t.events := by
  cases hpass with
  | noBuffers | noHashParam | notFound | failed | crashed | redirected | resent => cases hout
  | notModified _ hhttp =>
      cases hout
      obtain ⟨url, requestUrl, hash, time, hreplied⟩ := asked_replied env a st
      refine .inl ⟨a.curlRetCode, ?_⟩
      rw [hreplied.events, hhttp]
      simp
  | applied =>
      obtain ⟨dev, hmem⟩ := applied_mem_of_applyResponse hout
      exact .inr ⟨a.body, dev, hmem⟩

/-- A delivered response that does not send the run round again is applied. -/
theorem apply_mem_pass {env : Env} {a : Attempt} {st : St} (hdelivers : a.Delivers)
    {out : Exec St (Option ReturnCode)} (hpass : Pass env a st out)
    (hout : ∀ t, out ≠ .ok none t) : .apply a.body ∈ out.state.events := by
  cases hpass with
  | noBuffers halloc => exact absurd halloc (by simp [hdelivers.dwnLoc, hdelivers.headerDwnLoc])
  | noHashParam | notFound | failed | redirected | resent => exact absurd rfl (hout _)
  | notModified _ hhttp =>
      rw [hdelivers.http] at hhttp
      cases hhttp
  | crashed _ hpre => exact absurd hpre (preProcess_ne_none hdelivers.strings)
  | applied p =>
      obtain ⟨es, hes, -⟩ := (applyFrame_applyResponse env a (preProcessed a (received env a st) p)).events
      rw [hes]
      simp

/-- The run is orderly, ends in `SUCCESS` only after a 304 or a successful apply step, and reaches the
apply step when every download delivers a response. -/
structure RunEnd (env : Env) (attempts : Nat → Attempt) (out : Exec St ReturnCode) : Prop where
  orderly : Orderly out.state.events
  success : ∀ t, out = .ok .success t →
    (∃ curlRetCode, .response curlRetCode 304 ∈ t.events) ∨ ∃ body dev, .applied body dev ∈ t.events
  reached : env.directBlocked = false → (∀ i, (attempts i).Delivers) →
    ∃ body, .apply body ∈ out.state.events

/-- **The run state machine**, for every sequence of outcomes and bodies. -/
theorem run_stateMachine (env : Env) (attempts : Nat → Attempt) {st : St} (hentry : Entry st) :
    RunEnd env attempts (processRuntimeFeatureControlReq env attempts st) := by
  -- every delivered response uses up one of the two resends, so the loop cannot run out
  refine run_rule
    (P := fun i s => Waiting i s ∧ ((∀ i, (attempts i).Delivers) → redosLeft s.proc + i ≤ 2))
    ⟨hentry.waiting, fun _ => redosLeft_le _⟩ (fun i s h => h.1.flag) ?_ ?_ ?_ ?_ ?_
  · rintro i s s' - ⟨hs, hleft⟩ hpass
    refine ⟨waiting_round hs hpass, fun hdelivers => ?_⟩
    have hless := redosLeft_pass hs (hdelivers i) hpass rfl
    have hbound := hleft hdelivers
    omega
  · rintro ⟨hs, -⟩ hblocked
    refine ⟨hs.orderly (Nat.zero_le _), fun t h => ?_, fun hopen _ => ?_⟩
    · cases h
    · rw [hblocked] at hopen
      cases hopen
  · rintro s ⟨hs, hleft⟩
    refine ⟨hs.orderly (Nat.le_refl _), fun t h => ?_, fun _ hdelivers => ?_⟩
    · cases h
    · have hbound := hleft hdelivers
      rw [retryCount] at hbound
      omega
  · rintro i s r t hi ⟨hs, -⟩ hpass
    refine ⟨orderly_pass hs hi hpass, fun t' h => ?_, fun _ hdelivers => ?_⟩
    · cases h
      exact success_pass hpass rfl
    · exact ⟨_, apply_mem_pass (hdelivers i) hpass fun t' h => by cases h⟩
  · rintro i s t hi ⟨hs, -⟩ hpass
    refine ⟨orderly_pass hs hi hpass, fun t' h => ?_, fun _ hdelivers => ?_⟩
    · cases h
    · exact ⟨_, apply_mem_pass (hdelivers i) hpass fun t' h => by cases h⟩

theorem entry_fresh : Entry .fresh := ⟨.inl rfl, rfl, rfl⟩

/-- A server that never sends a features array. -/
theorem run_stateMachine_fresh :
    Orderly (processRuntimeFeatureControlReq .plain (fun _ => .answered 200 none) .fresh).state.events ∧
    ∃ body, .apply body ∈
      (processRuntimeFeatureControlReq .plain (fun _ => .answered 200 none) .fresh).state.events := by
  have hend := run_stateMachine .plain (fun _ => .answered 200 none) entry_fresh
  have hdelivers : (Attempt.answered 200 none).Delivers :=
    ⟨⟨⟨rfl, rfl, rfl⟩, rfl, rfl⟩, fun features hfeatures => by cases hfeatures⟩
  exact ⟨hend.orderly, hend.reached rfl fun _ => hdelivers⟩

end RfcMgr
