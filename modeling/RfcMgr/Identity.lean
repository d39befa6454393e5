import RfcMgr.ConfigData

/-! `PreProcessJsonResponse`: what the first look at a response takes from it, the account, the
partner and a redirection, and the state it leaves the run in. It changes the processor only. -/

namespace RfcMgr

open LastInsert

/-- `std::map::operator[]` read: a missing key is inserted with an empty value. -/
def mapAt (map : ConfigMap) (key : Str) : Str := map.getD key []
def mapTouch (map : ConfigMap) (key : Str) : ConfigMap := map.insertIfNew key []

/-- What is made of an identity in a response: the new valid value, the identity from now on, and
whether the request is to be sent again. -/
structure IdentityVerdict where
  valid : Str
  identity : Str
  resend : Bool

/-- The common part of `GetValidAccountId` and `GetValidPartnerId`. The last branch is the one the log
line of its neighbour talks about: a prior identity that is `Unknown` is kept and sent again. -/
def judgeIdentity (value current : Str) : Option IdentityVerdict :=
  if checkSpecialCharacters value then none
  else if !stringCaseCompare value unknownStr then some ⟨value, value, true⟩
  else if !stringCaseCompare current unknownStr then some ⟨value, current, false⟩
  else some ⟨current, current, true⟩

/-- `Redo_With_Valid_Data` on a resend, unless WhoAmI is in use. -/
def resendState (env : Env) (state : RfcState) (resend : Bool) : RfcState :=
  if resend && !env.checkWhoamiSupport then .redoWithValidData else state

def getValidAccountId (env : Env) (p : Processor) : Processor :=
  let received := mapAt p.rfcKeyAndValueMap rfcAccountIdKeyStr
  let p := { p with rfcKeyAndValueMap := mapTouch p.rfcKeyAndValueMap rfcAccountIdKeyStr }
  match judgeIdentity (if received = [] then unknownStr else received) p.accountId with
  | none => p
  | some verdict => { p with
      validAccountId := verdict.valid
      accountId := verdict.identity
      rfcState := resendState env p.rfcState verdict.resend }

def getValidPartnerId (env : Env) (p : Processor) : Processor :=
  let value := mapAt p.rfcKeyAndValueMap rfcPartnerIdKeyStr
  let p := { p with rfcKeyAndValueMap := mapTouch p.rfcKeyAndValueMap rfcPartnerIdKeyStr }
  if value = [] then { p with validPartnerId := unknownStr }
  else
    match judgeIdentity value p.partnerId with
    | none => p
    | some verdict => { p with
        validPartnerId := verdict.valid
        partnerId := verdict.identity
        rfcState := resendState env p.rfcState verdict.resend }

/-- The slot and the state for a selector; an empty one decides nothing. -/
def applyXconfSelector (xconfSelector : Str) (p : Processor) : Processor :=
  if xconfSelector = [] then p
  else if xconfSelector = "ci".toList then { p with rfcSelectorSlot := "16".toList, rfcState := .redo }
  else if xconfSelector = "automation".toList then
    { p with rfcSelectorSlot := "19".toList, rfcState := .redo }
  else { p with rfcSelectorSlot := "8".toList, rfcState := .finish }

def getXconfSelect (p : Processor) : Processor :=
  let xconfUrl := mapAt p.rfcKeyAndValueMap xconfUrlKeyStr
  let map := mapTouch p.rfcKeyAndValueMap xconfUrlKeyStr
  let xconfSelector := mapAt map xconfSelectorKeyStr
  let p := applyXconfSelector xconfSelector { p with
    rfcKeyAndValueMap := mapTouch map xconfSelectorKeyStr
    xconfServerUrl := if xconfUrl = [] then p.xconfServerUrl else xconfUrl }
  if p.rfcState = .init then { p with rfcState := .finish } else p

/-- `if (_is_first_request)`. -/
def firstRequestPart (env : Env) (p : Processor) : Processor :=
  if p.isFirstRequest then
    { getValidPartnerId env (getValidAccountId env p) with isFirstRequest := false }
  else p

/-- `if (rfc_state == Init)`. -/
def selectPart (p : Processor) : Processor :=
  if p.rfcState = .init then
    if p.rfcSelectOpt = "local".toList then { p with rfcState := .finish } else getXconfSelect p
  else p

/-- The part behind a parsed features array, once the map is filled. -/
def preProcessFilled (env : Env) (p : Processor) : Processor :=
  { selectPart (firstRequestPart env p) with rfcKeyAndValueMap := ∅ }

/-- `none` is the crash of `CreateConfigDataValueMap`. -/
def preProcessJsonResponse (env : Env) (body : Body) (p : Processor) : Option Processor :=
  if p.rfcState = .init ∨ p.isFirstRequest = true then
    match body.features with
    | none => some p
    | some features =>
        (createConfigDataValueMap features p.rfcKeyAndValueMap).map fun map =>
          preProcessFilled env { p with rfcKeyAndValueMap := map }
  else if p.rfcState = .redo then some { p with rfcState := .finish }
  else some p

/-! ### The account and the partner -/

/-- Non-empty, alphanumeric and not `Unknown` in any letter case. -/
def ValidIdentity (value : Str) : Prop :=
  value ≠ [] ∧ checkSpecialCharacters value = false ∧ stringCaseCompare value unknownStr = false

instance (value : Str) : Decidable (ValidIdentity value) :=
  inferInstanceAs (Decidable (_ ∧ _ ∧ _))

/-- An identity is kept, or replaced by a valid one from the response. -/
theorem judgeIdentity_identity {value current : Str} {verdict : IdentityVerdict}
    (h : judgeIdentity value current = some verdict) :
    verdict.identity = current ∨
      verdict.identity = value ∧ checkSpecialCharacters value = false ∧
        stringCaseCompare value unknownStr = false := by
  simp only [judgeIdentity] at h
  split at h
  · cases h
  next hspecial =>
    split at h
    next hunknown =>
      cases h
      exact .inr ⟨rfl, Bool.eq_false_iff.mpr hspecial, by simpa using hunknown⟩
    · split at h
      · cases h
        exact .inl rfl
      · cases h
        exact .inl rfl

theorem resendState_eq (env : Env) (state : RfcState) (resend : Bool) :
    resendState env state resend = state ∨ resendState env state resend = .redoWithValidData := by
  unfold resendState
  split
  · exact .inr rfl
  · exact .inl rfl

/-- What `GetValidAccountId` can change. -/
theorem getValidAccountId_spec (env : Env) (p : Processor) :
    ∃ valid state account, getValidAccountId env p = { p with
        rfcKeyAndValueMap := mapTouch p.rfcKeyAndValueMap rfcAccountIdKeyStr
        validAccountId := valid, rfcState := state, accountId := account } ∧
      (state = p.rfcState ∨ state = .redoWithValidData) ∧
      (account = p.accountId ∨
        account = mapAt p.rfcKeyAndValueMap rfcAccountIdKeyStr ∧ ValidIdentity account) := by
  simp only [getValidAccountId]
  split
  · exact ⟨p.validAccountId, p.rfcState, p.accountId, rfl, .inl rfl, .inl rfl⟩
  next verdict hverdict =>
    refine ⟨_, _, _, rfl, resendState_eq env p.rfcState verdict.resend, ?_⟩
    obtain hsame | ⟨hnew, hspecial, hunknown⟩ := judgeIdentity_identity hverdict
    · exact .inl hsame
    · by_cases hne : mapAt p.rfcKeyAndValueMap rfcAccountIdKeyStr = []
      · -- the replacement for a missing account is `Unknown` itself
        rw [if_pos hne] at hunknown
        exact absurd hunknown (by decide)
      · rw [if_neg hne] at hnew hspecial hunknown
        exact .inr ⟨hnew, hnew ▸ ⟨hne, hspecial, hunknown⟩⟩

/-- What `GetValidPartnerId` can change. -/
theorem getValidPartnerId_spec (env : Env) (p : Processor) :
    ∃ valid state partner, getValidPartnerId env p = { p with
        rfcKeyAndValueMap := mapTouch p.rfcKeyAndValueMap rfcPartnerIdKeyStr
        validPartnerId := valid, rfcState := state, partnerId := partner } ∧
      (state = p.rfcState ∨ state = .redoWithValidData) ∧
      (partner = p.partnerId ∨
        partner = mapAt p.rfcKeyAndValueMap rfcPartnerIdKeyStr ∧ ValidIdentity partner) := by
  simp only [getValidPartnerId]
  split
  · exact ⟨unknownStr, p.rfcState, p.partnerId, rfl, .inl rfl, .inl rfl⟩
  next hne =>
    split
    · exact ⟨p.validPartnerId, p.rfcState, p.partnerId, rfl, .inl rfl, .inl rfl⟩
    next verdict hverdict =>
      refine ⟨_, _, _, rfl, resendState_eq env p.rfcState verdict.resend, ?_⟩
      obtain hsame | ⟨hnew, hspecial, hunknown⟩ := judgeIdentity_identity hverdict
      · exact .inl hsame
      · exact .inr ⟨hnew, hnew ▸ ⟨hne, hspecial, hunknown⟩⟩

/-- Reading one key leaves the value of every other. -/
@[simp] theorem mapAt_mapTouch (map : ConfigMap) (key key' : Str) :
    mapAt (mapTouch map key) key' = mapAt map key' := by
  rw [mapAt, mapTouch, Std.TreeMap.getD_insertIfNew]
  split
  next h =>
    obtain ⟨hkey, hnot⟩ := h
    obtain rfl : key = key' := Std.LawfulEqCmp.eq_of_compare hkey
    exact (Std.TreeMap.getD_eq_fallback hnot).symm
  · rfl

theorem firstRequestPart_spec (env : Env) (p : Processor) :
    ∃ validA validP state account partner map, firstRequestPart env p = { p with
        rfcKeyAndValueMap := map, validAccountId := validA, validPartnerId := validP
        rfcState := state, accountId := account, partnerId := partner, isFirstRequest := false } ∧
      (∀ key, mapAt map key = mapAt p.rfcKeyAndValueMap key) ∧
      (state = p.rfcState ∨ state = .redoWithValidData ∧ p.isFirstRequest = true) ∧
      (account = p.accountId ∨
        account = mapAt p.rfcKeyAndValueMap rfcAccountIdKeyStr ∧ ValidIdentity account) ∧
      (partner = p.partnerId ∨
        partner = mapAt p.rfcKeyAndValueMap rfcPartnerIdKeyStr ∧ ValidIdentity partner) := by
  unfold firstRequestPart
  split
  next hfirst =>
    obtain ⟨validA, stateA, account, haccount, hstateA, hA⟩ := getValidAccountId_spec env p
    obtain ⟨validP, stateP, partner, hpartner, hstateP, hP⟩ :=
      getValidPartnerId_spec env (getValidAccountId env p)
    rw [hpartner, haccount]
    rw [haccount] at hstateP hP
    refine ⟨validA, validP, stateP, account, partner, _, rfl, ?_, ?_, hA, ?_⟩
    · intro key
      simp only [mapAt_mapTouch]
    · rcases hstateP with rfl | rfl
      · exact hstateA.imp id fun h => ⟨h, hfirst⟩
      · exact .inr ⟨rfl, hfirst⟩
    · simpa only [mapAt_mapTouch] using hP
  next hfirst =>
    have hfalse : p.isFirstRequest = false := Bool.eq_false_iff.mpr hfirst
    refine ⟨p.validAccountId, p.validPartnerId, p.rfcState, p.accountId, p.partnerId,
      p.rfcKeyAndValueMap, ?_, fun _ => rfl, .inl rfl, .inl rfl, .inl rfl⟩
    rw [← hfalse]

/-- A selector that asks for a request to another server. -/
def Redirects (xconfSelector : Str) : Prop :=
  xconfSelector = "ci".toList ∨ xconfSelector = "automation".toList

instance (xconfSelector : Str) : Decidable (Redirects xconfSelector) :=
  inferInstanceAs (Decidable (_ ∨ _))

theorem getXconfSelect_spec (p : Processor) (hinit : p.rfcState = .init) :
    ∃ slot map, getXconfSelect p = { p with
        rfcKeyAndValueMap := map, rfcSelectorSlot := slot
        rfcState := if Redirects (mapAt p.rfcKeyAndValueMap xconfSelectorKeyStr) then .redo else .finish
        xconfServerUrl := if mapAt p.rfcKeyAndValueMap xconfUrlKeyStr = [] then p.xconfServerUrl
          else mapAt p.rfcKeyAndValueMap xconfUrlKeyStr } := by
  simp only [getXconfSelect, applyXconfSelector, mapAt_mapTouch]
  generalize mapAt p.rfcKeyAndValueMap xconfSelectorKeyStr = selector
  by_cases hempty : selector = []
  · subst hempty
    have hno : ¬ Redirects [] := by decide
    simp only [if_true, hinit, hno, if_false]
    exact ⟨_, _, rfl⟩
  · by_cases hci : selector = "ci".toList
    · subst hci
      have hyes : Redirects "ci".toList := .inl rfl
      simp only [hempty, if_false, if_true, hyes, reduceCtorEq]
      exact ⟨_, _, rfl⟩
    · by_cases hauto : selector = "automation".toList
      · subst hauto
        have hyes : Redirects "automation".toList := .inr rfl
        simp only [hempty, hci, if_false, if_true, hyes, reduceCtorEq]
        exact ⟨_, _, rfl⟩
      · have hno : ¬ Redirects selector := not_or.mpr ⟨hci, hauto⟩
        simp only [hempty, hci, hauto, if_false, hno, reduceCtorEq]
        exact ⟨_, _, rfl⟩

/-- The four ways the state and the server URL can leave a response that was read. -/
inductive NextRequest (p : Processor) : RfcState → Str → Prop where
  | resend (hfirst : p.isFirstRequest = true) : NextRequest p .redoWithValidData p.xconfServerUrl
  | localOverride (hinit : p.rfcState = .init) (hlocal : p.rfcSelectOpt = "local".toList) :
      NextRequest p .finish p.xconfServerUrl
  | select (hinit : p.rfcState = .init) (hlocal : p.rfcSelectOpt ≠ "local".toList) :
      NextRequest p
        (if Redirects (mapAt p.rfcKeyAndValueMap xconfSelectorKeyStr) then .redo else .finish)
        (if mapAt p.rfcKeyAndValueMap xconfUrlKeyStr = [] then p.xconfServerUrl
          else mapAt p.rfcKeyAndValueMap xconfUrlKeyStr)
  | keep (hinit : p.rfcState ≠ .init) : NextRequest p p.rfcState p.xconfServerUrl

/-- **What the first look at a response can change.** -/
theorem preProcessFilled_spec (env : Env) (p : Processor) :
    ∃ validA validP state account partner slot url, preProcessFilled env p = { p with
        rfcKeyAndValueMap := ∅, validAccountId := validA, validPartnerId := validP
        rfcState := state, accountId := account, partnerId := partner, isFirstRequest := false
        rfcSelectorSlot := slot, xconfServerUrl := url } ∧
      NextRequest p state url ∧
      (account = p.accountId ∨
        account = mapAt p.rfcKeyAndValueMap rfcAccountIdKeyStr ∧ ValidIdentity account) ∧
      (partner = p.partnerId ∨
        partner = mapAt p.rfcKeyAndValueMap rfcPartnerIdKeyStr ∧ ValidIdentity partner) := by
  obtain ⟨validA, validP, state, account, partner, map, hfirst, hmap, hstate, hA, hP⟩ :=
    firstRequestPart_spec env p
  rw [preProcessFilled, hfirst]
  by_cases hinit : state = .init
  · subst hinit
    have hpinit : p.rfcState = .init := by
      rcases hstate with h | ⟨h, -⟩
      · exact h.symm
      · cases h
    by_cases hlocal : p.rfcSelectOpt = "local".toList
    · simp only [selectPart, if_true, hlocal]
      exact ⟨_, _, _, _, _, _, _, rfl, .localOverride hpinit hlocal, hA, hP⟩
    · simp only [selectPart, if_true, hlocal, if_false]
      obtain ⟨slot, map', hselect⟩ := getXconfSelect_spec { p with
        rfcKeyAndValueMap := map, validAccountId := validA, validPartnerId := validP
        rfcState := .init, accountId := account, partnerId := partner, isFirstRequest := false } rfl
      rw [hselect]
      simp only [hmap]
      exact ⟨_, _, _, _, _, _, _, rfl, .select hpinit hlocal, hA, hP⟩
  · simp only [selectPart, hinit, if_false]
    refine ⟨_, _, _, _, _, _, _, rfl, ?_, hA, hP⟩
    rcases hstate with rfl | ⟨rfl, hisFirst⟩
    · exact .keep hinit
    · exact .resend hisFirst

/-- The three ways `PreProcessJsonResponse` goes. -/
theorem preProcessJsonResponse_cases {env : Env} {body : Body} {p p' : Processor}
    (h : preProcessJsonResponse env body p = some p') :
    (∃ features map, body.features = some features ∧
      createConfigDataValueMap features p.rfcKeyAndValueMap = some map ∧
      (p.rfcState = .init ∨ p.isFirstRequest = true) ∧
      p' = preProcessFilled env { p with rfcKeyAndValueMap := map }) ∨
    (p.rfcState = .redo ∧ p.isFirstRequest = false ∧ p' = { p with rfcState := .finish }) ∨
    (p' = p ∧ (p.rfcState = .redo → p.isFirstRequest = true)) := by
  simp only [preProcessJsonResponse] at h
  split at h
  next hread =>
    split at h
    · cases h
      refine .inr (.inr ⟨rfl, fun hredo => ?_⟩)
      simpa only [hredo, reduceCtorEq, false_or] using hread
    next features hfeatures =>
      obtain ⟨map, hmap, rfl⟩ := Option.map_eq_some_iff.mp h
      exact .inl ⟨features, map, hfeatures, hmap, hread, rfl⟩
  next hread =>
    simp only [not_or, Bool.not_eq_true] at hread
    split at h
    next hredo =>
      cases h
      exact .inr (.inl ⟨hredo, hread.2, rfl⟩)
    next hredo =>
      cases h
      exact .inr (.inr ⟨rfl, fun h => absurd h hredo⟩)

/-- The first look leaves URL validation alone. -/
theorem preProcess_flag {env : Env} {body : Body} {p p' : Processor}
    (h : preProcessJsonResponse env body p = some p') :
    p'.urlValidationInProgress = p.urlValidationInProgress := by
  obtain ⟨features, map, -, -, -, rfl⟩ | ⟨-, -, rfl⟩ | ⟨rfl, -⟩ := preProcessJsonResponse_cases h
  · obtain ⟨_, _, _, _, _, _, _, heq, -⟩ :=
      preProcessFilled_spec env { p with rfcKeyAndValueMap := map }
    rw [heq]
  · rfl
  · rfl

end RfcMgr
