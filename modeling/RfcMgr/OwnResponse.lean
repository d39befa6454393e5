import RfcMgr.RequestPass

/-! No leakage between the responses of one run: the parameter map is empty whenever an apply step
starts to fill it, and an identity is taken from the response at hand only. -/

namespace RfcMgr

open LastInsert

/-- What a filled map holds was given by the response it was filled from. -/
theorem mem_storedEntries_of_filled {features : List Json} {filled : ConfigMap} {key value : Str}
    (hfilled : createConfigDataValueMap features ∅ = some filled)
    (hmem : (key, value) ∈ filled.toList) : (key, value) ∈ storedEntries features := by
  obtain ⟨-, rfl⟩ := createConfigDataValueMap_eq_some.mp hfilled
  rw [Std.TreeMap.mem_toList_iff_getElem?_eq_some, getElem?_insertAll_empty] at hmem
  rw [storedEntries_visited_append_hidden]
  exact List.mem_append_left _ (lastValue_mem hmem)

/-- The value `CreateConfigDataValueMap` leaves for a key, when it is not empty. -/
theorem mem_storedEntries_of_mapAt {features : List Json} {map : ConfigMap} {key : Str}
    (hmap : createConfigDataValueMap features ∅ = some map) (hne : mapAt map key ≠ []) :
    (key, mapAt map key) ∈ storedEntries features := by
  refine mem_storedEntries_of_filled hmap ?_
  rw [Std.TreeMap.mem_toList_iff_getElem?_eq_some]
  rw [mapAt, Std.TreeMap.getD_eq_getD_getElem?] at hne ⊢
  cases hvalue : map[key]? with
  | none =>
      rw [hvalue] at hne
      exact absurd rfl hne
  | some value => rfl

/-- An identity is as before, or a valid one that the response gives for the key. -/
def TakenFrom (body : Body) (key before after : Str) : Prop :=
  after = before ∨
    ∃ features, body.features = some features ∧ (key, after) ∈ storedEntries features ∧
      ValidIdentity after

/-- `PreProcessJsonResponse` of an empty map leaves an empty map and takes identities from its own
response. -/
theorem preProcess_own {env : Env} {body : Body} {p p' : Processor}
    (h : preProcessJsonResponse env body p = some p') (hmap : p.rfcKeyAndValueMap = ∅) :
    p'.rfcKeyAndValueMap = ∅ ∧
      TakenFrom body rfcAccountIdKeyStr p.accountId p'.accountId ∧
      TakenFrom body rfcPartnerIdKeyStr p.partnerId p'.partnerId := by
  obtain ⟨features, map, hfeatures, hfilled, -, rfl⟩ | ⟨-, -, rfl⟩ | ⟨rfl, -⟩ :=
    preProcessJsonResponse_cases h
  · rw [hmap] at hfilled
    obtain ⟨_, _, _, account, partner, _, _, heq, -, haccount, hpartner⟩ :=
      preProcessFilled_spec env { p with rfcKeyAndValueMap := map }
    have htaken : ∀ key identity, identity = mapAt map key ∧ ValidIdentity identity →
        (key, identity) ∈ storedEntries features := by
      rintro key identity ⟨rfl, hvalid⟩
      exact mem_storedEntries_of_mapAt hfilled hvalid.1
    rw [heq]
    refine ⟨rfl, haccount.imp id fun h => ?_, hpartner.imp id fun h => ?_⟩
    · exact ⟨features, hfeatures, htaken _ _ h, h.2⟩
    · exact ⟨features, hfeatures, htaken _ _ h, h.2⟩
  · exact ⟨hmap, .inl rfl, .inl rfl⟩
  · exact ⟨hmap, .inl rfl, .inl rfl⟩

/-! ### The run -/

/-- A fresh processor and an empty trace. -/
structure Fresh (st : St) : Prop where
  map : st.proc.rfcKeyAndValueMap = ∅
  flag : st.proc.urlValidationInProgress = false
  events : st.events = []

/-- An event before the apply step, with identities taken from their own response. -/
def Event.Unapplied : Event → Prop
  | .request _ _ _ _ => True
  | .response _ _ => True
  | .preProcessed body before after =>
      TakenFrom body rfcAccountIdKeyStr before.accountId after.accountId ∧
        TakenFrom body rfcPartnerIdKeyStr before.partnerId after.partnerId
  | _ => False

/-- What holds at the head of every pass. -/
structure Unmixed (st : St) : Prop where
  map : st.proc.rfcKeyAndValueMap = ∅
  flag : st.proc.urlValidationInProgress = false
  events : ∀ e ∈ st.events, e.Unapplied

theorem Fresh.unmixed {st : St} (h : Fresh st) : Unmixed (st.onProc chooseSelectOpt) where
  map := h.map
  flag := h.flag
  events e he := by
    rw [St.onProc_events, h.events] at he
    cases he

theorem Unmixed.asked {s t : St} {es : List Event} (h : Unmixed s) (hasked : Asked s t es)
    (hes : ∀ e ∈ es, e.Unapplied) : Unmixed t := by
  obtain ⟨url, b, hproc⟩ := hasked.proc
  refine ⟨?_, ?_, ?_⟩
  · rw [hproc]
    exact h.map
  · rw [hproc]
    exact h.flag
  · intro e he
    rw [hasked.events] at he
    exact (List.mem_append.mp he).elim (h.events e) (hes e)

/-- A request and its reply. -/
theorem unapplied_exchange {url requestUrl hash time : Str} {curlRetCode httpCode : Int} :
    ∀ e ∈ [Event.request url requestUrl hash time, .response curlRetCode httpCode],
      e.Unapplied := by
  intro e he
  simp only [List.mem_cons, List.not_mem_nil, or_false] at he
  rcases he with rfl | rfl
  · trivial
  · trivial

theorem Unmixed.received {s : St} (h : Unmixed s) (env : Env) (a : Attempt) :
    Unmixed (received env a s) := by
  obtain ⟨_, _, _, _, hasked⟩ := asked_received env a s
  exact h.asked hasked unapplied_exchange

/-- The flag is no part of the first look at a response. -/
theorem Unmixed.preProcessed {env : Env} {a : Attempt} {s : St} {p : Processor} (h : Unmixed s)
    (hpre : preProcessJsonResponse env a.body s.proc = some p) :
    Unmixed (preProcessed a s p) := by
  obtain ⟨hmap, haccount, hpartner⟩ := preProcess_own hpre h.map
  refine ⟨hmap, (preProcess_flag hpre).trans h.flag, ?_⟩
  intro e he
  rcases List.mem_append.mp he with he | he
  · exact h.events e he
  · obtain rfl := List.mem_singleton.mp he
    exact ⟨haccount, hpartner⟩

/-- A pass keeps the invariant up to its end or up to the apply step. -/
theorem unmixed_pass {env : Env} {a : Attempt} {s : St} (h : Unmixed s)
    {out : Exec St (Option ReturnCode)} (hpass : Pass env a s out) :
    Unmixed out.state ∨ ∃ p, Unmixed (preProcessed a (received env a s) p) ∧
      out = applyResponse env a (preProcessed a (received env a s) p) := by
  obtain ⟨_, _, _, _, hreplied⟩ := asked_replied env a s
  have hreceived := h.received env a
  cases hpass with
  | noBuffers | noHashParam =>
      exact .inl (h.asked (asked_resolved env a s) fun _ he => absurd he List.not_mem_nil)
  | notFound => exact .inl (h.asked (hreplied.onDev rfl) unapplied_exchange)
  | notModified | failed => exact .inl (h.asked hreplied unapplied_exchange)
  | crashed => exact .inl hreceived
  | redirected p _ hpre => exact .inl (hreceived.preProcessed hpre)
  | resent p _ hpre =>
      obtain ⟨hmap, hflag, hevents⟩ := hreceived.preProcessed hpre
      exact .inl ⟨hmap, hflag, hevents⟩
  | applied p _ hpre => exact .inr ⟨p, hreceived.preProcessed hpre, rfl⟩

theorem unmixed_round {env : Env} {a : Attempt} {s t : St} (h : Unmixed s)
    (hpass : Pass env a s (.ok none t)) : Unmixed t := by
  obtain hround | ⟨p, -, hout⟩ := unmixed_pass h hpass
  · exact hround
  · exact absurd hout applyResponse_ne_none

/-- A trace in which nothing comes from another response than the one it is used for. -/
structure Own (es : List Event) : Prop where
  fill : ∀ proc dev, .fill proc dev ∈ es → proc.rfcKeyAndValueMap = ∅
  param : ∀ key value decision, .param key value decision ∈ es →
    ∃ body features, (∀ body', .apply body' ∈ es ↔ body' = body) ∧ body.features = some features ∧
      (key, value) ∈ storedEntries features ∧
      ∀ written, decision.written = some written → written = value
  identity : ∀ body before after, .preProcessed body before after ∈ es →
    TakenFrom body rfcAccountIdKeyStr before.accountId after.accountId ∧
      TakenFrom body rfcPartnerIdKeyStr before.partnerId after.partnerId

/-- A trace without an apply step. -/
theorem own_of_unapplied {es : List Event} (h : ∀ e ∈ es, e.Unapplied) : Own es where
  fill _ _ hmem := (h _ hmem).elim
  param _ _ _ hmem := (h _ hmem).elim
  identity _ _ _ hmem := h _ hmem

/-- The events an apply step has in common with the trace before it, or lacks. -/
theorem Event.OfApply.own {map : ConfigMap} {body : Body} {e : Event} (h : e.OfApply map body) :
    (∀ body', e ≠ .apply body') ∧ (∀ body' before after, e ≠ .preProcessed body' before after) ∧
      (∀ proc dev, e = .fill proc dev → proc.rfcKeyAndValueMap = map) ∧
      ∀ key value decision, e = .param key value decision →
        (Event.param key value decision).OfPart map body := by
  rcases h with h | ⟨dev, rfl⟩ | ⟨selector, url, rfl⟩
  · refine ⟨?_, ?_, ?_, ?_⟩
    · rintro body' rfl
      exact h
    · rintro body' before after rfl
      exact h
    · rintro proc dev rfl
      exact h
    · rintro key value decision rfl
      exact h
  · simp
  · simp

/-- An apply step behind such a trace. -/
theorem own_of_applied {es es' : List Event} {body : Body} (h : ∀ e ∈ es, e.Unapplied)
    (h' : ∀ e ∈ es', e.OfApply ∅ body) : Own (es ++ .apply body :: es') where
  fill proc dev hmem := by
    simp only [List.mem_append, List.mem_cons, reduceCtorEq, false_or] at hmem
    rcases hmem with hmem | hmem
    · exact (h _ hmem).elim
    · exact (h' _ hmem).own.2.2.1 proc dev rfl
  param key value decision hmem := by
    simp only [List.mem_append, List.mem_cons, reduceCtorEq, false_or] at hmem
    rcases hmem with hmem | hmem
    · exact (h _ hmem).elim
    · obtain ⟨features, filled, hfeatures, hfilled, hpair, hwritten⟩ :=
        (h' _ hmem).own.2.2.2 key value decision rfl
      refine ⟨body, features, ?_, hfeatures, mem_storedEntries_of_filled hfilled hpair, hwritten⟩
      intro body'
      simp only [List.mem_append, List.mem_cons, Event.apply.injEq]
      constructor
      · rintro (hmem | rfl | hmem)
        · exact (h _ hmem).elim
        · rfl
        · exact absurd rfl ((h' _ hmem).own.1 body')
      · rintro rfl
        exact .inr (.inl rfl)
  identity body' before after hmem := by
    simp only [List.mem_append, List.mem_cons, reduceCtorEq, false_or] at hmem
    rcases hmem with hmem | hmem
    · exact h _ hmem
    · exact absurd rfl ((h' _ hmem).own.2.1 body' before after)

theorem own_pass {env : Env} {a : Attempt} {s : St} (h : Unmixed s)
    {out : Exec St (Option ReturnCode)} (hpass : Pass env a s out) : Own out.state.events := by
  obtain hend | ⟨p, hbefore, rfl⟩ := unmixed_pass h hpass
  · exact own_of_unapplied hend.events
  · obtain ⟨es, hes, hall⟩ :=
      (applyFrame_applyResponse env a (preProcessed a (received env a s) p)).events
    rw [hbefore.map] at hall
    rw [hes, St.log_events, List.append_assoc, List.singleton_append]
    exact own_of_applied hbefore.events hall

/-- **No leakage between the responses of one run**, for every sequence of outcomes and bodies. -/
theorem run_own (env : Env) (attempts : Nat → Attempt) {st : St} (hfresh : Fresh st) :
    Own (processRuntimeFeatureControlReq env attempts st).state.events :=
  run_state_rule (P := fun _ s => Unmixed s) (Q := fun s => Own s.events) hfresh.unmixed
    (fun _ _ h => h.flag) (fun _ _ _ _ h hpass => unmixed_round h hpass)
    (fun _ _ _ h => own_of_unapplied h.events) (fun _ _ _ _ h hpass => own_pass h hpass)

/-- A response with an account the device does not know yet. -/
def accountResponse : Body :=
  responseBody [.object (plainFeature "AccountInfo".toList
    [("tr181.".toList ++ rfcAccountIdKeyStr, .string "4812".toList)])]

/-- The first response leads to a resend with the account, the second one is applied. -/
theorem run_own_fresh :
    Own (processRuntimeFeatureControlReq .plain (fun _ => .answered 200 accountResponse)
      .fresh).state.events :=
  run_own .plain (fun _ => .answered 200 accountResponse) ⟨rfl, rfl, rfl⟩

/-! ### Finding events in a sample run -/

def Event.startsWith (P : Processor → Device → Bool) : Event → Bool
  | .fill proc dev => P proc dev
  | _ => false

def Event.endsWith (P : Body → Device → Bool) : Event → Bool
  | .applied body dev => P body dev
  | _ => false

theorem exists_fill_of_any {es : List Event} {P : Processor → Device → Bool}
    (h : es.any (Event.startsWith P) = true) : ∃ proc dev, .fill proc dev ∈ es ∧ P proc dev = true := by
  obtain ⟨e, hmem, he⟩ := List.any_eq_true.mp h
  cases e with
  | fill proc dev => exact ⟨proc, dev, hmem, he⟩
  | request | response | validationRequest | preProcessed | apply | param | applied | stored => cases he

theorem exists_applied_of_any {es : List Event} {P : Body → Device → Bool}
    (h : es.any (Event.endsWith P) = true) : ∃ body dev, .applied body dev ∈ es ∧ P body dev = true := by
  obtain ⟨e, hmem, he⟩ := List.any_eq_true.mp h
  cases e with
  | applied body dev => exact ⟨body, dev, hmem, he⟩
  | request | response | validationRequest | preProcessed | apply | fill | param | stored => cases he

end RfcMgr
