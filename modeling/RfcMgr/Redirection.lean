import RfcMgr.OwnResponse
import RfcMgr.ParamDecisions

/-! Redirection: to which server the request behind a redirecting response goes, and which selector and
URL are persisted when the run is over. The URL of the server is written by the head of the loop, by
`GetXconfSelect` and by nothing else; the selector that is persisted by nothing but the entry. -/

namespace RfcMgr

/-! ### What a response asks for -/

/-- The map that a response gives. -/
def responseMap (body : Body) : ConfigMap :=
  (body.features.bind fun features => createConfigDataValueMap features ∅).getD ∅

def responseValue (body : Body) (key : Str) : Str := mapAt (responseMap body) key

/-- The selector and the URL of a response that redirects. -/
def redirectOf (body : Body) : Option (Str × Str) :=
  if Redirects (responseValue body xconfSelectorKeyStr) ∧ responseValue body xconfUrlKeyStr ≠ [] then
    some (responseValue body xconfSelectorKeyStr, responseValue body xconfUrlKeyStr)
  else none

theorem redirectOf_eq_some {body : Body} {selector u : Str} (h : redirectOf body = some (selector, u)) :
    Redirects (responseValue body xconfSelectorKeyStr) ∧ responseValue body xconfUrlKeyStr = u ∧
      u ≠ [] := by
  unfold redirectOf at h
  split at h
  next hredirects =>
    obtain ⟨rfl, rfl⟩ := Prod.mk.inj (Option.some.inj h)
    exact ⟨hredirects.1, rfl, hredirects.2⟩
  · cases h

theorem responseMap_eq {body : Body} {features : List Json} {map : ConfigMap}
    (hfeatures : body.features = some features)
    (hmap : createConfigDataValueMap features ∅ = some map) : responseMap body = map := by
  rw [responseMap, hfeatures, Option.bind_some, hmap, Option.getD_some]

/-- The response is looked at for a selector: its features parse, the run is in `Init` and still is
when the account and the partner of a first response are judged, and no local file overrides. -/
def LooksAt (env : Env) (body : Body) (p : Processor) : Prop :=
  body.features ≠ none ∧
    (firstRequestPart env { p with rfcKeyAndValueMap := responseMap body }).rfcState = .init ∧
    p.rfcSelectOpt ≠ "local".toList

/-- A response that is looked at decides the state and the server. -/
theorem preProcess_looked {env : Env} {body : Body} {p p' : Processor} (hmap : p.rfcKeyAndValueMap = ∅)
    (h : preProcessJsonResponse env body p = some p') (hlooks : LooksAt env body p) :
    p'.rfcState = (if Redirects (responseValue body xconfSelectorKeyStr) then .redo else .finish) ∧
      p'.xconfServerUrl = (if responseValue body xconfUrlKeyStr = [] then p.xconfServerUrl
        else responseValue body xconfUrlKeyStr) := by
  obtain ⟨hfeatures, hinit, hlocal⟩ := hlooks
  obtain ⟨features, hfeatures⟩ := Option.ne_none_iff_exists'.mp hfeatures
  obtain ⟨validA, validP, state, account, partner, map', hfirst, hvalues, hstate, -⟩ :=
    firstRequestPart_spec env { p with rfcKeyAndValueMap := responseMap body }
  rw [hfirst] at hinit
  obtain rfl : state = .init := hinit
  have hpinit : p.rfcState = .init := by
    rcases hstate with hsame | ⟨hresend, -⟩
    · exact hsame.symm
    · cases hresend
  rw [preProcessJsonResponse, if_pos (.inl hpinit), hfeatures, hmap] at h
  obtain ⟨map, hcreate, rfl⟩ := Option.map_eq_some_iff.mp h
  rw [responseMap_eq hfeatures hcreate] at hfirst hvalues
  have hvalue : ∀ key, responseValue body key = mapAt map key := by
    intro key
    rw [responseValue, responseMap_eq hfeatures hcreate]
  rw [preProcessFilled, hfirst]
  simp only [selectPart, if_true, hlocal, if_false]
  obtain ⟨slot, map'', hselect⟩ := getXconfSelect_spec { p with
    rfcKeyAndValueMap := map', validAccountId := validA, validPartnerId := validP
    rfcState := .init, accountId := account, partnerId := partner, isFirstRequest := false } rfl
  rw [hselect]
  simp only [hvalues, hvalue, and_self]

/-- Any other response leaves the server as it is. -/
theorem preProcess_unlooked {env : Env} {body : Body} {p p' : Processor}
    (hmap : p.rfcKeyAndValueMap = ∅) (h : preProcessJsonResponse env body p = some p')
    (hlooks : ¬ LooksAt env body p) : p'.xconfServerUrl = p.xconfServerUrl := by
  obtain ⟨features, map, hfeatures, hcreate, -, rfl⟩ | ⟨-, -, rfl⟩ | ⟨rfl, -⟩ :=
    preProcessJsonResponse_cases h
  · rw [hmap] at hcreate
    have hfirst := firstRequestPart_spec env { p with rfcKeyAndValueMap := map }
    rw [LooksAt, responseMap_eq hfeatures hcreate, hfeatures] at hlooks
    obtain ⟨_, _, state, _, _, _, hfirst, -⟩ := hfirst
    rw [hfirst] at hlooks
    rw [preProcessFilled, hfirst]
    by_cases hinit : state = .init
    · subst hinit
      by_cases hlocal : p.rfcSelectOpt = "local".toList
      · simp only [selectPart, if_true, hlocal]
      · exact absurd ⟨Option.some_ne_none _, rfl, hlocal⟩ hlooks
    · simp only [selectPart, hinit, if_false]
  · rfl
  · rfl

/-- The rest of the processor that redirection depends on. -/
theorem preProcess_selectOpt {env : Env} {body : Body} {p p' : Processor}
    (h : preProcessJsonResponse env body p = some p') : p'.rfcSelectOpt = p.rfcSelectOpt := by
  obtain ⟨features, map, -, -, -, rfl⟩ | ⟨-, -, rfl⟩ | ⟨rfl, -⟩ := preProcessJsonResponse_cases h
  · obtain ⟨_, _, _, _, _, _, _, heq, -⟩ :=
      preProcessFilled_spec env { p with rfcKeyAndValueMap := map }
    rw [heq]
  · rfl
  · rfl

/-! ### What a trace shows -/

/-- The request goes to the server `u`, and its URL is not cut off before the query. -/
def SentTo (u server url : Str) : Prop := server = u ∧ u ++ "?".toList <+: url

instance (u server url : Str) : Decidable (SentTo u server url) := inferInstanceAs (Decidable (_ ∧ _))

/-- What a trace shows of redirection. -/
@[ext] structure Seen where
  /-- The server to which the next request has to go. -/
  pending : Option Str
  /-- Every request that had to go to some server went there. -/
  followed : Bool
  /-- Selector and URL of the last response that redirects. -/
  redirect : Option (Str × Str)
  /-- The server of the last request. -/
  server : Option Str
  /-- The selector and the URL that are persisted. -/
  persisted : Str × Str

def Seen.step (seen : Seen) : Event → Seen
  | .request server url _ _ =>
      { seen with
        pending := none
        followed := seen.followed && seen.pending.all fun u => decide (SentTo u server url)
        server := some server }
  | .preProcessed body _ _ =>
      { seen with
        pending := (redirectOf body).map (·.2)
        redirect := (redirectOf body).or seen.redirect }
  | .stored selector url => { seen with persisted := (selector, url) }
  | _ => seen

/-- What the trace of a run shows, when the pair `old` is persisted before. -/
def seen (old : Str × Str) (es : List Event) : Seen := es.foldl Seen.step ⟨none, true, none, none, old⟩

theorem seen_append (old : Str × Str) (es es' : List Event) :
    seen old (es ++ es') = es'.foldl Seen.step (seen old es) := List.foldl_append

/-- An event that redirection does not show in. -/
def Event.Silent : Event → Prop
  | .request _ _ _ _ => False
  | .preProcessed _ _ _ => False
  | .stored _ _ => False
  | _ => True

theorem Event.Silent.step {e : Event} (h : e.Silent) (seen : Seen) : seen.step e = seen := by
  cases e with
  | request | preProcessed | stored => exact h.elim
  | response | validationRequest | apply | fill | param | applied => rfl

theorem seen_grows {s t : St} (h : Grows Event.Silent s t) (old : Str × Str) :
    seen old t.events = seen old s.events := by
  obtain ⟨es, hes, hall⟩ := h
  rw [hes, seen_append]
  clear hes
  induction es with
  | nil => rfl
  | cons e es ih =>
      rw [List.foldl_cons, (hall e List.mem_cons_self).step]
      exact ih fun e he => hall e (List.mem_cons_of_mem _ he)

theorem Event.OfPart.silent {map : ConfigMap} {body : Body} {e : Event} (h : e.OfPart map body) :
    e.Silent := by
  cases e with
  | request | preProcessed | stored => exact h
  | response | validationRequest | apply | fill | param | applied => trivial

theorem grows_processJsonResponse (env : Env) (body : Body) (st : St) :
    Grows Event.Silent st (processJsonResponse env body st).state := by
  have happly : Grows Event.Silent st (st.log (.apply body)) := .log st trivial
  have hpart : ∀ features, body.features = some features → Grows Event.Silent st
      (processXconfResponseConfigDataPart env features (featuresWritten features body st)).state :=
    fun _ hfeatures => happly.trans
      ((applyFrame_featuresWritten env hfeatures st).events.imp fun _ h => h.silent)
  have hstep := processJsonResponse_step env body st
  generalize processJsonResponse env body st = out at hstep ⊢
  cases hstep with
  | rejected => exact happly
  | crashed hfeatures hcrash =>
      have hgrows := hpart _ hfeatures
      rwa [hcrash] at hgrows
  | applied hfeatures hdone =>
      have hgrows := hpart _ hfeatures
      rw [hdone] at hgrows
      exact hgrows.trans (.log _ trivial)

theorem storeOutcome_events (env : Env) (header : Str) (rc : ReturnCode) (st : St) :
    (storeOutcome env header rc st).events =
      st.events ++ [.stored st.proc.rfcSelectOpt st.proc.xconfServerUrl] := by
  have hmetadata : ∀ u : St, (storeXconfEndpointMetadata env u).events =
      u.events ++ [.stored u.proc.rfcSelectOpt u.proc.xconfServerUrl] := fun _ => rfl
  have hupdated : ∀ hash time u, (updateTimeInDB env time (updateHashInDB env hash u)).events = u.events ∧
      (updateTimeInDB env time (updateHashInDB env hash u)).proc.rfcSelectOpt = u.proc.rfcSelectOpt ∧
      (updateTimeInDB env time (updateHashInDB env hash u)).proc.xconfServerUrl =
        u.proc.xconfServerUrl := fun _ _ _ => ⟨rfl, rfl, rfl⟩
  cases rc with
  | success =>
      simp only [storeOutcome, hmetadata, updateHashAndTimeInDB]
      cases configSetHashValue header with
      | some hash =>
          obtain ⟨hevents, hselectOpt, hserverUrl⟩ := hupdated hash env.configSetTime st
          rw [hevents, hselectOpt, hserverUrl]
      | none => rfl
  | failure | noRfcUpdateRequired =>
      obtain ⟨hevents, hselectOpt, hserverUrl⟩ := hupdated "CLEARED".toList "0".toList st
      simp only [storeOutcome, hmetadata, hevents, hselectOpt, hserverUrl]

/-! ### When redirection is honoured -/

/-- A run honours redirection: a request that a response asks for goes where it asks; a run that ends in
success persists the last redirect, or the selector and the server of its last request; any other run
persists nothing new. -/
structure Honours (old : Str × Str) (selector : Str) (out : Exec St ReturnCode) : Prop where
  followed : (seen old out.state.events).followed = true
  redirected : out.value? = some .success → ∀ pair,
    (seen old out.state.events).redirect = some pair → (seen old out.state.events).persisted = pair
  direct : out.value? = some .success → (seen old out.state.events).redirect = none →
    ∃ server, (seen old out.state.events).server = some server ∧
      (seen old out.state.events).persisted = (selector, server)
  failed : out.value? ≠ some .success → (seen old out.state.events).persisted = old

/-- The head of the pass leaves the server: a local file overrides, or there is no bootstrap URL, or it
names the same server. -/
def KeepsServer (env : Env) (a : Attempt) (p : Processor) : Prop :=
  (a.filePresent && env.isDebugServicesUnlocked) = true ∨ p.bootStrapXconfUrl = [] ∨
    p.bootStrapXconfUrl ++ getSettings = p.xconfServerUrl

/-- The response is not sent back and goes on to `ProcessJsonResponse`. -/
def Applies (env : Env) (body : Body) (p : Processor) : Prop :=
  ∃ p', preProcessJsonResponse env body p = some p' ∧ p'.rfcState ≠ .redo ∧
    p'.rfcState ≠ .redoWithValidData

/-- A pass that keeps to redirection. -/
structure Undiverted (env : Env) (old : Str × Str) (a : Attempt) (s : St) : Prop where
  /-- The server a redirect has named is not replaced, and its URL fits into the request. -/
  kept : s.proc.rfcState = .redo → KeepsServer env a s.proc ∧ s.proc.xconfServerUrl.length < 1023
  /-- A response that redirects is looked at. -/
  looked : a.Answered → redirectOf a.body ≠ none → LooksAt env a.body (received env a s).proc
  /-- When the server has nothing new, the pair is persisted already. -/
  notModified : a.Allocated → a.httpCode = 304 →
    old = (seen old s.events).redirect.getD
      (s.proc.rfcSelectOpt, (resolved env a s).proc.xconfServerUrl)
  /-- A response is applied when none has redirected, and it names no other server. -/
  applied : a.Answered → Applies env a.body (received env a s).proc → a.body.features ≠ none →
    (seen old s.events).redirect = none ∧
      (LooksAt env a.body (received env a s).proc → responseValue a.body xconfUrlKeyStr = [] ∨
        responseValue a.body xconfUrlKeyStr = (resolved env a s).proc.xconfServerUrl)
  /-- When a response cannot be applied, the pair is persisted already. -/
  failed : a.Answered → Applies env a.body (received env a s).proc → a.body.features = none →
    old = (s.proc.rfcSelectOpt, (resolved env a s).proc.xconfServerUrl)

/-- What holds at the head of every pass. -/
structure Heading (old : Str × Str) (selector : Str) (s : St) : Prop where
  unmixed : Unmixed s
  selector : s.proc.rfcSelectOpt = selector
  followed : (seen old s.events).followed = true
  pending : ∀ u, (seen old s.events).pending = some u →
    s.proc.rfcState = .redo ∧ s.proc.xconfServerUrl = u
  persisted : (seen old s.events).persisted = old

section Pass

variable {env : Env} {a : Attempt} {old : Str × Str} {selector : Str} {s : St}

theorem resolved_kept (h : KeepsServer env a s.proc) :
    (resolved env a s).proc.xconfServerUrl = s.proc.xconfServerUrl := by
  rw [resolved, St.onProc_proc, resolveServerUrl]
  by_cases hlocal : (a.filePresent && env.isDebugServicesUnlocked) = true
  · rw [if_pos hlocal]
  rw [if_neg hlocal]
  by_cases hnone : s.proc.bootStrapXconfUrl = []
  · rw [if_pos hnone]
  rw [if_neg hnone]
  exact (h.resolve_left hlocal).resolve_left hnone

/-- The request of the pass, in what the trace shows. -/
theorem Heading.seen_replied (h : Heading old selector s) (hok : Undiverted env old a s) :
    seen old (replied env a s).events =
      { seen old s.events with
        pending := none, server := some (resolved env a s).proc.xconfServerUrl } := by
  obtain ⟨_, hash, time, _, hreplied, -⟩ := replied_spec env a s
  have hsent : (seen old s.events).pending.all (fun u => decide (SentTo u
      (resolved env a s).proc.xconfServerUrl
      ((createXconfHTTPUrl env (resolved env a s).proc).take 1023))) = true := by
    rw [Option.all_eq_true]
    intro u hu
    obtain ⟨hredo, rfl⟩ := h.pending u hu
    obtain ⟨hkept, hlength⟩ := hok.kept hredo
    have hserver := resolved_kept hkept
    refine decide_eq_true ⟨hserver, List.prefix_take_iff.mpr ⟨?_, ?_⟩⟩
    · rw [← hserver]
      simp only [createXconfHTTPUrl, List.append_assoc]
      rw [← List.append_assoc]
      exact List.prefix_append _ _
    · rw [List.length_append]
      exact hlength
  rw [hreplied, seen_append]
  simp only [List.foldl_cons, List.foldl_nil, Seen.step, hsent, Bool.and_true]

/-- The pair of the request and the parts of the processor it leaves. -/
theorem received_proc (env : Env) (a : Attempt) (s : St) :
    (received env a s).proc.xconfServerUrl = (resolved env a s).proc.xconfServerUrl ∧
      (received env a s).proc.rfcSelectOpt = s.proc.rfcSelectOpt ∧
      (received env a s).proc.rfcKeyAndValueMap = s.proc.rfcKeyAndValueMap := by
  obtain ⟨_, _, _, _, hreplied, -⟩ := replied_spec env a s
  obtain ⟨_, hurl⟩ := resolved_spec env a s
  simp only [received, St.onDev_proc, hreplied, hurl, and_self]

/-- A response that redirects and is looked at leads to a redo at its server. -/
theorem redo_of_redirectOf {p : Processor} (hmap : (received env a s).proc.rfcKeyAndValueMap = ∅)
    (hpre : preProcessJsonResponse env a.body (received env a s).proc = some p)
    (hlooks : redirectOf a.body ≠ none → LooksAt env a.body (received env a s).proc) {u : Str}
    (hredirect : (redirectOf a.body).map (·.2) = some u) :
    p.rfcState = .redo ∧ p.xconfServerUrl = u := by
  obtain ⟨⟨sel, u⟩, hpair, rfl⟩ := Option.map_eq_some_iff.mp hredirect
  obtain ⟨hredirects, hurl, hne⟩ := redirectOf_eq_some hpair
  have hlooked := hlooks (by rw [hpair]; exact Option.some_ne_none _)
  obtain ⟨hstate, hserver⟩ := preProcess_looked hmap hpre hlooked
  rw [if_pos hredirects] at hstate
  rw [hurl, if_neg hne] at hserver
  exact ⟨hstate, hserver⟩

/-- What the trace shows once the response is looked at. -/
theorem seen_preProcessed (p : Processor) : seen old (preProcessed a (received env a s) p).events =
    { seen old (replied env a s).events with
      pending := (redirectOf a.body).map (·.2)
      redirect := (redirectOf a.body).or (seen old (replied env a s).events).redirect } := by
  change seen old ((replied env a s).events ++ _) = _
  rw [seen_append]
  rfl

/-- A pass that does not look at a response: nothing is pending behind it. -/
theorem Heading.replied (h : Heading old selector s) (hok : Undiverted env old a s) {t : St}
    (hevents : t.events = (replied env a s).events) (hproc : t.proc = (replied env a s).proc)
    (ht : Unmixed t) : Heading old selector t := by
  have hseen := h.seen_replied hok
  obtain ⟨-, hselector, -⟩ := received_proc env a s
  refine ⟨ht, ?_, ?_, ?_, ?_⟩
  · rw [hproc]
    exact hselector.trans h.selector
  · rw [hevents, hseen]
    exact h.followed
  · intro u hu
    rw [hevents, hseen] at hu
    cases hu
  · rw [hevents, hseen]
    exact h.persisted

/-- A pass that looks at one: what the response names is pending behind it. -/
theorem Heading.preProcessed (h : Heading old selector s) (hok : Undiverted env old a s)
    {p q : Processor} (hanswered : a.Answered)
    (hpre : preProcessJsonResponse env a.body (received env a s).proc = some p)
    (hsame : p.rfcState = .redo → q = p) (hopt : q.rfcSelectOpt = p.rfcSelectOpt)
    (hq : Unmixed { preProcessed a (received env a s) p with proc := q }) :
    Heading old selector { preProcessed a (received env a s) p with proc := q } := by
  have hseen := h.seen_replied hok
  obtain ⟨-, hselector, hmap⟩ := received_proc env a s
  refine ⟨hq, ?_, ?_, ?_, ?_⟩
  · exact hopt.trans ((preProcess_selectOpt hpre).trans (hselector.trans h.selector))
  · change (seen old (RfcMgr.preProcessed a (received env a s) p).events).followed = true
    rw [seen_preProcessed, hseen]
    exact h.followed
  · intro u hu
    change (seen old (RfcMgr.preProcessed a (received env a s) p).events).pending = some u at hu
    rw [seen_preProcessed] at hu
    have hredo := redo_of_redirectOf (hmap.trans h.unmixed.map) hpre (hok.looked hanswered) hu
    rw [hsame hredo.1]
    exact hredo
  · change (seen old (RfcMgr.preProcessed a (received env a s) p).events).persisted = old
    rw [seen_preProcessed, hseen]
    exact h.persisted

/-- A pass without memory for the hash: what was pending stays so. -/
theorem Heading.resolved (h : Heading old selector s) (hok : Undiverted env old a s)
    (ht : Unmixed (RfcMgr.resolved env a s)) : Heading old selector (RfcMgr.resolved env a s) := by
  obtain ⟨url, hurl⟩ := resolved_spec env a s
  refine ⟨ht, ?_, ?_, ?_, ?_⟩
  · rw [hurl]
    exact h.selector
  · rw [hurl]
    exact h.followed
  · intro u hu
    have hpending : (seen old s.events).pending = some u := by rwa [hurl] at hu
    obtain ⟨hredo, hu⟩ := h.pending u hpending
    have hkept := resolved_kept (hok.kept hredo).1
    refine ⟨?_, hkept.trans hu⟩
    rw [hurl]
    exact hredo
  · rw [hurl]
    exact h.persisted

/-- A pass that goes round again. -/
theorem heading_round (h : Heading old selector s) (hok : Undiverted env old a s) {t : St}
    (hpass : Pass env a s (.ok none t)) : Heading old selector t := by
  have hunmixed := unmixed_round h.unmixed hpass
  generalize hout : (Exec.ok none t : Exec St (Option ReturnCode)) = out at hpass
  cases hpass with
  | noBuffers | notModified | crashed => cases hout
  | applied => exact absurd hout applyResponse_ne_none
  | noHashParam =>
      cases hout
      exact h.resolved hok hunmixed
  | notFound | failed =>
      cases hout
      exact h.replied hok rfl rfl hunmixed
  | redirected p hanswered hpre =>
      cases hout
      exact h.preProcessed (q := p) hok hanswered hpre (fun _ => rfl) rfl hunmixed
  | resent p hanswered hpre hstate =>
      cases hout
      refine h.preProcessed (q := { p with rfcState := .init }) hok hanswered hpre ?_ rfl hunmixed
      intro hredo
      rw [hstate] at hredo
      cases hredo

/-- A run that stops at the head of a pass, or for want of buffers. -/
theorem Heading.honours (h : Heading old selector s) :
    Honours old selector (.ok .failure s) where
  followed := h.followed
  redirected hsuccess := by cases hsuccess
  direct hsuccess := by cases hsuccess
  failed _ := h.persisted

/-- What `ProcessJsonResponse` returns says whether the features parse. -/
theorem processJsonResponse_rc {body : Body} {t : St} {rc : ReturnCode}
    (h : processJsonResponse env body s = .ok rc t) :
    rc = .success ∧ body.features ≠ none ∨ rc = .failure ∧ body.features = none := by
  have hstep := processJsonResponse_step env body s
  rw [h] at hstep
  cases hstep with
  | rejected hfeatures => exact .inr ⟨rfl, hfeatures⟩
  | applied hfeatures => exact .inl ⟨rfl, hfeatures ▸ Option.some_ne_none _⟩

/-- What a run has seen when the outcome of an applied response is stored. -/
theorem seen_storeOutcome (h : Heading old selector s) (hok : Undiverted env old a s)
    (hnone : redirectOf a.body = none) {p : Processor}
    (hpre : preProcessJsonResponse env a.body (received env a s).proc = some p) {rc : ReturnCode} {t : St}
    (hjson : processJsonResponse env a.body (preProcessed a (received env a s) p) = .ok rc t) :
    seen old (storeOutcome env a.header rc t).events =
      { seen old s.events with
        pending := none
        server := some (resolved env a s).proc.xconfServerUrl
        persisted := (selector, p.xconfServerUrl) } := by
  obtain ⟨-, hselector, -⟩ := received_proc env a s
  have hgrows := grows_processJsonResponse env a.body (preProcessed a (received env a s) p)
  obtain ⟨_, _, _, _, _, _, hproc⟩ :=
    (applyFrame_processJsonResponse env a.body (preProcessed a (received env a s) p)).proc
  rw [hjson, Exec.state_ok] at hgrows hproc
  have hopt : t.proc.rfcSelectOpt = selector := by
    rw [hproc]
    exact (preProcess_selectOpt hpre).trans (hselector.trans h.selector)
  have hurl : t.proc.xconfServerUrl = p.xconfServerUrl := by
    rw [hproc]
    rfl
  rw [storeOutcome_events, seen_append, seen_grows hgrows, seen_preProcessed, h.seen_replied hok, hnone,
    hopt, hurl]
  rfl

/-- The pass that applies a response. -/
theorem honours_applyResponse (h : Heading old selector s) (hok : Undiverted env old a s)
    {p : Processor} (hanswered : a.Answered)
    (hpre : preProcessJsonResponse env a.body (received env a s).proc = some p)
    (hstate : p.rfcState ≠ .redo ∧ p.rfcState ≠ .redoWithValidData) {r : ReturnCode} {t : St}
    (hout : applyResponse env a (preProcessed a (received env a s) p) = .ok (some r) t) :
    Honours old selector (.ok r t) := by
  obtain ⟨hserver, -, hmap⟩ := received_proc env a s
  have happlies : Applies env a.body (received env a s).proc := ⟨p, hpre, hstate⟩
  have hnone : redirectOf a.body = none := by
    by_contra hsome
    obtain ⟨pair, hpair⟩ := Option.ne_none_iff_exists'.mp hsome
    exact hstate.1 (redo_of_redirectOf (u := pair.2) (hmap.trans h.unmixed.map) hpre (hok.looked hanswered)
      (by rw [hpair]; rfl)).1
  obtain ⟨rc, s₂, hjson, hstored⟩ := Exec.bind_eq_ok.mp hout
  have hseen := seen_storeOutcome h hok hnone hpre hjson
  obtain ⟨rfl, hfeatures⟩ | ⟨rfl, hfeatures⟩ := processJsonResponse_rc hjson
  · cases hstored
    obtain ⟨hredirect, hvalue⟩ := hok.applied hanswered happlies hfeatures
    have hsame : p.xconfServerUrl = (resolved env a s).proc.xconfServerUrl := by
      by_cases hlooks : LooksAt env a.body (received env a s).proc
      · rw [(preProcess_looked (hmap.trans h.unmixed.map) hpre hlooks).2, hserver]
        split
        · rfl
        next hne => exact (hvalue hlooks).resolve_left hne
      · exact (preProcess_unlooked (hmap.trans h.unmixed.map) hpre hlooks).trans hserver
    refine ⟨?_, ?_, ?_, ?_⟩
    · rw [Exec.state_ok, hseen]
      exact h.followed
    · intro _ pair hpair
      rw [Exec.state_ok, hseen] at hpair
      rw [hredirect] at hpair
      cases hpair
    · intro _ _
      rw [Exec.state_ok, hseen]
      exact ⟨_, rfl, by rw [hsame]⟩
    · intro hfailed
      exact absurd rfl hfailed
  · cases hstored
    have hunlooked : ¬ LooksAt env a.body (received env a s).proc := fun hlooks => hlooks.1 hfeatures
    have hsame := (preProcess_unlooked (hmap.trans h.unmixed.map) hpre hunlooked).trans hserver
    refine ⟨?_, ?_, ?_, ?_⟩
    · rw [Exec.state_ok, hseen]
      exact h.followed
    · intro hsuccess
      cases hsuccess
    · intro hsuccess
      cases hsuccess
    · intro _
      rw [Exec.state_ok, hseen, hok.failed hanswered happlies hfeatures, hsame, h.selector]

/-- A pass that ends the run. -/
theorem honours_broke (h : Heading old selector s) (hok : Undiverted env old a s) {r : ReturnCode}
    {t : St} (hpass : Pass env a s (.ok (some r) t)) : Honours old selector (.ok r t) := by
  generalize hout : (Exec.ok (some r) t : Exec St (Option ReturnCode)) = out at hpass
  cases hpass with
  | noHashParam | notFound | failed | crashed | redirected | resent => cases hout
  | noBuffers =>
      cases hout
      obtain ⟨url, hurl⟩ := resolved_spec env a s
      refine ⟨?_, ?_, ?_, ?_⟩
      · rw [Exec.state_ok, hurl]
        exact h.followed
      · intro hsuccess
        cases hsuccess
      · intro hsuccess
        cases hsuccess
      · rw [Exec.state_ok, hurl]
        exact fun _ => h.persisted
  | notModified halloc hhttp =>
      cases hout
      have hold := hok.notModified halloc hhttp
      refine ⟨?_, ?_, ?_, ?_⟩
      · rw [Exec.state_ok, h.seen_replied hok]
        exact h.followed
      · intro _ pair hpair
        rw [Exec.state_ok, h.seen_replied hok] at hpair ⊢
        rw [show (seen old s.events).redirect = some pair from hpair, Option.getD_some] at hold
        exact h.persisted.trans hold
      · intro _ hnone
        rw [Exec.state_ok, h.seen_replied hok] at hnone ⊢
        rw [show (seen old s.events).redirect = none from hnone, Option.getD_none, h.selector] at hold
        exact ⟨_, rfl, h.persisted.trans hold⟩
      · intro hfailed
        exact absurd rfl hfailed
  | applied p hanswered hpre hstate => exact honours_applyResponse h hok hanswered hpre hstate hout.symm

/-- A pass that crashes has persisted nothing. -/
theorem honours_crashed (h : Heading old selector s) (hok : Undiverted env old a s) {t : St}
    (hpass : Pass env a s (.crash t)) : Honours old selector (.crash t) := by
  have hseen : (seen old t.events).followed = true ∧ (seen old t.events).persisted = old := by
    generalize hout : (Exec.crash t : Exec St (Option ReturnCode)) = out at hpass
    cases hpass with
    | noBuffers | noHashParam | notFound | notModified | failed | redirected | resent => cases hout
    | crashed =>
        cases hout
        have hevents : (received env a s).events = (replied env a s).events := rfl
        rw [hevents, h.seen_replied hok]
        exact ⟨h.followed, h.persisted⟩
    | applied p hanswered hpre hstate =>
        have hgrows := grows_processJsonResponse env a.body (preProcessed a (received env a s) p)
        rw [applyResponse] at hout
        generalize processJsonResponse env a.body (preProcessed a (received env a s) p) = json
          at hgrows hout
        cases json with
        | ok rc s₂ => cases hout
        | crash s₂ =>
            cases hout
            rw [Exec.state_crash] at hgrows
            rw [seen_grows hgrows, seen_preProcessed, h.seen_replied hok]
            exact ⟨h.followed, h.persisted⟩
  refine ⟨hseen.1, ?_, ?_, fun _ => hseen.2⟩
  · intro hsuccess
    cases hsuccess
  · intro hsuccess
    cases hsuccess

end Pass

/-! ### The run -/

/-- A processor that has made requests before, with this bootstrap URL. -/
def St.settled (bootStrapXconfUrl : Str) : St :=
  { St.fresh with proc := { Processor.fresh with
      isFirstRequest := false, bootStrapXconfUrl := bootStrapXconfUrl } }

theorem settled_fresh (bootStrapXconfUrl : Str) : Fresh (.settled bootStrapXconfUrl) := ⟨rfl, rfl, rfl⟩

/-- A response that asks for a request to another server. -/
def redirectResponse : Body :=
  responseBody [.object (plainFeature "Xconf".toList
    [(xconfSelectorKeyStr, .string "ci".toList), (xconfUrlKeyStr, .string "https://ci".toList)])]

end RfcMgr
