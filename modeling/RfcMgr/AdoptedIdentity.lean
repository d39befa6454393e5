import RfcMgr.Identity

/-! What becomes of the account and the partner on the first response: which values of the response are
adopted, and when the request is sent again for their sake. -/

namespace RfcMgr

open LastInsert

/-! ### Exactly what the first look does -/

/-- The identity after the response has given `received`. -/
def adopted (received current : Str) : Str := if ValidIdentity received then received else current

/-- The request is to be sent again: the value is valid, or it is `Unknown` and nothing better was
known. -/
def Resends (value current : Str) : Prop :=
  ValidIdentity value ∨
    stringCaseCompare value unknownStr = true ∧ stringCaseCompare current unknownStr = true

instance (value current : Str) : Decidable (Resends value current) :=
  inferInstanceAs (Decidable (_ ∨ _))

/-- A missing account stands for `Unknown`. -/
def orUnknown (received : Str) : Str := if received = [] then unknownStr else received

theorem isAlpha_of_toLower {c : Char} (h : c.toLower.isAlpha = true) : c.isAlpha = true := by
  by_cases hupper : c.isUpper = true
  · show (c.isUpper || c.isLower) = true
    rw [hupper, Bool.true_or]
  · have hsame : c.toLower = c := dif_neg fun hrange => hupper (decide_eq_true hrange)
    rwa [hsame] at h

theorem orUnknown_fold (received : Str) :
    (if received = [] then unknownStr else received) = orUnknown received := rfl

theorem checkSpecialCharacters_of_unknown {value : Str}
    (h : stringCaseCompare value unknownStr = true) : checkSpecialCharacters value = false := by
  have hlower : value.map Char.toLower = unknownStr.map Char.toLower := eq_of_beq h
  have hletters : ∀ c ∈ unknownStr, c.toLower.isAlpha = true := List.all_eq_true.mp rfl
  refine List.any_eq_false.mpr ?_
  intro c hc
  obtain ⟨d, hd, hsame⟩ := List.mem_map.mp (hlower ▸ List.mem_map_of_mem hc)
  have hletter : c.isAlpha = true := isAlpha_of_toLower (hsame ▸ hletters d hd)
  simp [Char.isAlphanum, hletter]

/-- What the two functions make of a value that is not empty: an identity, and whether to send again. -/
theorem judgeIdentity_spec {value : Str} (hne : value ≠ []) (current : Str) :
    match judgeIdentity value current with
    | none => adopted value current = current ∧ ¬ Resends value current
    | some verdict => adopted value current = verdict.identity ∧
        (verdict.resend = true ↔ Resends value current) := by
  unfold judgeIdentity adopted Resends ValidIdentity
  by_cases hspecial : checkSpecialCharacters value = true
  · have hknown : stringCaseCompare value unknownStr ≠ true := by
      intro hunknown
      rw [checkSpecialCharacters_of_unknown hunknown] at hspecial
      cases hspecial
    simp [hspecial, hknown]
  · by_cases hvalue : stringCaseCompare value unknownStr = true
    · by_cases hcurrent : stringCaseCompare current unknownStr = true
      · simp [hspecial, hvalue, hcurrent]
      · simp [hspecial, hvalue, hcurrent]
    · simp [hspecial, hvalue, hne]

variable (env : Env) (p : Processor)

theorem orUnknown_ne_nil (received : Str) : orUnknown received ≠ [] := by
  unfold orUnknown
  split
  · exact List.cons_ne_nil _ _
  · assumption

theorem not_validIdentity_unknown : ¬ ValidIdentity unknownStr := by
  rintro ⟨-, -, hunknown⟩
  rw [stringCaseCompare, beq_self_eq_true] at hunknown
  cases hunknown

theorem validIdentity_orUnknown_iff (received : Str) :
    ValidIdentity (orUnknown received) ↔ ValidIdentity received := by
  unfold orUnknown
  split
  next hempty => exact iff_of_false not_validIdentity_unknown fun h => h.1 hempty
  · rfl

theorem adopted_orUnknown (received current : Str) :
    adopted (orUnknown received) current = adopted received current := by
  unfold adopted
  by_cases hvalid : ValidIdentity received
  · rw [if_pos ((validIdentity_orUnknown_iff received).mpr hvalid), if_pos hvalid, orUnknown,
      if_neg hvalid.1]
  · rw [if_neg (mt (validIdentity_orUnknown_iff received).mp hvalid), if_neg hvalid]

/-- The state after an identity has been judged. -/
def resentState (state : RfcState) (again : Prop) [Decidable again] : RfcState :=
  if again ∧ env.checkWhoamiSupport = false then .redoWithValidData else state

theorem resendState_eq_resentState {state : RfcState} {resend : Bool} {again : Prop}
    [Decidable again] (h : resend = true ↔ again) :
    resendState env state resend = resentState env state again := by
  unfold resendState resentState
  simp only [Bool.and_eq_true, Bool.not_eq_true', h]

theorem getValidAccountId_eq :
    (getValidAccountId env p).accountId =
        adopted (mapAt p.rfcKeyAndValueMap rfcAccountIdKeyStr) p.accountId ∧
      (getValidAccountId env p).rfcState = resentState env p.rfcState
        (Resends (orUnknown (mapAt p.rfcKeyAndValueMap rfcAccountIdKeyStr)) p.accountId) := by
  have hspec := judgeIdentity_spec
    (orUnknown_ne_nil (mapAt p.rfcKeyAndValueMap rfcAccountIdKeyStr)) p.accountId
  rw [adopted_orUnknown] at hspec
  cases hjudge : judgeIdentity (orUnknown (mapAt p.rfcKeyAndValueMap rfcAccountIdKeyStr)) p.accountId with
  | none =>
      rw [hjudge] at hspec
      simp only [getValidAccountId, orUnknown_fold, hjudge]
      exact ⟨hspec.1.symm, by simp [resentState, hspec.2]⟩
  | some verdict =>
      rw [hjudge] at hspec
      simp only [getValidAccountId, orUnknown_fold, hjudge]
      exact ⟨hspec.1.symm, resendState_eq_resentState env hspec.2⟩

theorem getValidPartnerId_eq :
    (getValidPartnerId env p).partnerId =
        adopted (mapAt p.rfcKeyAndValueMap rfcPartnerIdKeyStr) p.partnerId ∧
      (getValidPartnerId env p).rfcState = resentState env p.rfcState
        (Resends (mapAt p.rfcKeyAndValueMap rfcPartnerIdKeyStr) p.partnerId) := by
  by_cases hempty : mapAt p.rfcKeyAndValueMap rfcPartnerIdKeyStr = []
  · have hnot : ¬ Resends [] p.partnerId := by
      rintro (hvalid | ⟨hunknown, -⟩)
      · exact hvalid.1 rfl
      · exact absurd hunknown (by decide)
    simp only [getValidPartnerId, hempty, resentState, hnot, false_and, if_false,
      adopted, ValidIdentity]
    simp
  · have hspec := judgeIdentity_spec hempty p.partnerId
    cases hjudge : judgeIdentity (mapAt p.rfcKeyAndValueMap rfcPartnerIdKeyStr) p.partnerId with
    | none =>
        rw [hjudge] at hspec
        simp only [getValidPartnerId, if_neg hempty, hjudge]
        exact ⟨hspec.1.symm, by simp [resentState, hspec.2]⟩
    | some verdict =>
        rw [hjudge] at hspec
        simp only [getValidPartnerId, if_neg hempty, hjudge]
        exact ⟨hspec.1.symm, resendState_eq_resentState env hspec.2⟩

theorem resentState_resentState (state : RfcState) (first second : Prop) [Decidable first]
    [Decidable second] :
    resentState env (resentState env state first) second = resentState env state (first ∨ second) := by
  unfold resentState
  by_cases hsecond : second ∧ env.checkWhoamiSupport = false
  · rw [if_pos hsecond, if_pos ⟨Or.inr hsecond.1, hsecond.2⟩]
  · rw [if_neg hsecond]
    by_cases hfirst : first ∧ env.checkWhoamiSupport = false
    · rw [if_pos hfirst, if_pos ⟨Or.inl hfirst.1, hfirst.2⟩]
    · rw [if_neg hfirst, if_neg]
      rintro ⟨h | h, hwhoami⟩
      · exact hfirst ⟨h, hwhoami⟩
      · exact hsecond ⟨h, hwhoami⟩

/-- What the first look makes of a received account and a received partner. -/
structure TakesIds (account partner : Str) (p' : Processor) : Prop where
  accountId : p'.accountId = adopted account p.accountId
  partnerId : p'.partnerId = adopted partner p.partnerId
  resends : p'.rfcState = .redoWithValidData ↔
    resentState env p.rfcState (Resends (orUnknown account) p.accountId ∨ Resends partner p.partnerId) =
      .redoWithValidData

theorem firstRequestPart_takesIds (hfirst : p.isFirstRequest = true) :
    TakesIds env p (mapAt p.rfcKeyAndValueMap rfcAccountIdKeyStr)
      (mapAt p.rfcKeyAndValueMap rfcPartnerIdKeyStr) (firstRequestPart env p) := by
  obtain ⟨validA, stateA, account, hA, -, -⟩ := getValidAccountId_spec env p
  obtain ⟨validP, stateP, partner, hP, -, -⟩ := getValidPartnerId_spec env (getValidAccountId env p)
  obtain ⟨haccount, hstateA⟩ := getValidAccountId_eq env p
  obtain ⟨hpartner, hstateP⟩ := getValidPartnerId_eq env (getValidAccountId env p)
  have hpart : firstRequestPart env p =
      { getValidPartnerId env (getValidAccountId env p) with isFirstRequest := false } := if_pos hfirst
  have hsame : (getValidAccountId env p).partnerId = p.partnerId := by rw [hA]
  have hmap : mapAt (getValidAccountId env p).rfcKeyAndValueMap rfcPartnerIdKeyStr =
      mapAt p.rfcKeyAndValueMap rfcPartnerIdKeyStr := by
    rw [hA]
    exact mapAt_mapTouch _ _ _
  rw [hsame, hmap] at hpartner hstateP
  rw [hstateA, resentState_resentState] at hstateP
  rw [hpart]
  refine ⟨?_, hpartner, by rw [hstateP]⟩
  rw [← haccount]
  show (getValidPartnerId env (getValidAccountId env p)).accountId = _
  rw [hP]

theorem selectPart_frame :
    (selectPart p).accountId = p.accountId ∧ (selectPart p).partnerId = p.partnerId ∧
      ((selectPart p).rfcState = .redoWithValidData ↔ p.rfcState = .redoWithValidData) := by
  unfold selectPart
  split
  next hinit =>
    split
    · simp [hinit]
    · obtain ⟨slot, map, hselect⟩ := getXconfSelect_spec p hinit
      rw [hselect]
      refine ⟨rfl, rfl, iff_of_false ?_ (by simp [hinit])⟩
      show (if _ then RfcState.redo else RfcState.finish) ≠ _
      split <;> simp
  · exact ⟨rfl, rfl, Iff.rfl⟩

theorem preProcessFilled_takesIds (hfirst : p.isFirstRequest = true) :
    TakesIds env p (mapAt p.rfcKeyAndValueMap rfcAccountIdKeyStr)
      (mapAt p.rfcKeyAndValueMap rfcPartnerIdKeyStr) (preProcessFilled env p) := by
  obtain ⟨haccount, hpartner, hstate⟩ := selectPart_frame (firstRequestPart env p)
  obtain ⟨hA, hP, hresends⟩ := firstRequestPart_takesIds env p hfirst
  exact ⟨haccount.trans hA, hpartner.trans hP, hstate.trans hresends⟩

/-! ### The first response -/

/-- The value that the two functions see under a key: the last one that the features before the first
one without configData give. -/
def receivedId (features : List Json) (key : Str) : Str :=
  (lastValue (storedEntries (visited features)) key).getD (mapAt p.rfcKeyAndValueMap key)

theorem mapAt_insertAll (map : ConfigMap) (entries : List (Str × Str)) (key : Str) :
    mapAt (insertAll map entries) key = (lastValue entries key).getD (mapAt map key) := by
  unfold mapAt
  rw [Std.TreeMap.getD_eq_getD_getElem?, getElem?_insertAll, Std.TreeMap.getD_eq_getD_getElem?]
  cases lastValue entries key <;> rfl

/-- The first response: what is taken from it, when all the members that are read are strings. -/
theorem preProcess_first {body : Body} {features : List Json} (hfirst : p.isFirstRequest = true)
    (hfeatures : body.features = some features) :
    ¬ StringMembers (visited features) ∧ preProcessJsonResponse env body p = none ∨
      StringMembers (visited features) ∧ ∃ p', preProcessJsonResponse env body p = some p' ∧
        TakesIds env p (receivedId p features rfcAccountIdKeyStr)
          (receivedId p features rfcPartnerIdKeyStr) p' := by
  rw [preProcessJsonResponse, if_pos (Or.inr hfirst), hfeatures]
  simp only
  cases hmap : createConfigDataValueMap features p.rfcKeyAndValueMap with
  | none =>
      refine Or.inl ⟨fun hstrings => ?_, rfl⟩
      rw [createConfigDataValueMap_eq_some.mpr ⟨hstrings, rfl⟩] at hmap
      cases hmap
  | some map =>
      obtain ⟨hstrings, rfl⟩ := createConfigDataValueMap_eq_some.mp hmap
      refine Or.inr ⟨hstrings, _, rfl, ?_⟩
      have htakes := preProcessFilled_takesIds env { p with
        rfcKeyAndValueMap := insertAll p.rfcKeyAndValueMap (storedEntries (visited features)) } hfirst
      simp only [mapAt_insertAll] at htakes
      exact ⟨htakes.accountId, htakes.partnerId, htakes.resends⟩

/-! ### Identities over the documented alphabet -/

/-- The two identities of the processor. -/
inductive Identity where
  | account | partner

def Identity.key : Identity → Str
  | .account => rfcAccountIdKeyStr
  | .partner => rfcPartnerIdKeyStr

def Identity.get (identity : Identity) (p : Processor) : Str :=
  match identity with
  | .account => p.accountId
  | .partner => p.partnerId

/-- `[a-zA-Z0-9._-]`, the characters that the header of `CheckSpecialCharacters` allows. -/
def documentedChar (c : Char) : Bool := c.isAlphanum || c == '.' || c == '_' || c == '-'

/-- Non-empty, over the documented alphabet and not `Unknown` in any letter case. -/
def Documented (id : Str) : Prop :=
  id ≠ [] ∧ id.all documentedChar = true ∧ stringCaseCompare id unknownStr = false

instance (id : Str) : Decidable (Documented id) := inferInstanceAs (Decidable (_ ∧ _ ∧ _))

/-- The first response's ids over the alphabet become the processor's, and other values change
nothing. -/
def AdoptsDocumented (body : Body) : Prop :=
  ∀ features identity id, body.features = some features →
    lastValue (storedEntries features) (Identity.key identity) = some id →
      (Documented id → ∃ p', preProcessJsonResponse env body p = some p' ∧ identity.get p' = id) ∧
      (id.all documentedChar = false →
        ∃ p', preProcessJsonResponse env body p = some p' ∧ identity.get p' = identity.get p)

/-- The members that are read are strings, the ids over the alphabet are read and have no other
characters than letters and digits, and nothing is adopted in place of other values; what the processor
has already needs no adoption. -/
def AdoptableIds (body : Body) : Prop :=
  ∀ features identity id, body.features = some features →
    lastValue (storedEntries features) (Identity.key identity) = some id →
      (Documented id → StringMembers (visited features) ∧
        (receivedId p features identity.key = id ∧ checkSpecialCharacters id = false ∨
          ¬ ValidIdentity (receivedId p features identity.key) ∧ identity.get p = id)) ∧
      (id.all documentedChar = false → StringMembers (visited features) ∧
        (ValidIdentity (receivedId p features identity.key) →
          receivedId p features identity.key = identity.get p))

theorem becomes_iff {body : Body} {features : List Json} (hfirst : p.isFirstRequest = true)
    (hfeatures : body.features = some features) (identity : Identity) (id : Str) :
    (∃ p', preProcessJsonResponse env body p = some p' ∧ identity.get p' = id) ↔
      StringMembers (visited features) ∧
        adopted (receivedId p features identity.key) (identity.get p) = id := by
  obtain ⟨hstrings, hnone⟩ | ⟨hstrings, p', hsome, htakes⟩ := preProcess_first env p hfirst hfeatures
  · simp [hstrings, hnone]
  · have hget : identity.get p' = adopted (receivedId p features identity.key) (identity.get p) := by
      cases identity with
      | account => exact htakes.accountId
      | partner => exact htakes.partnerId
    simp [hstrings, hsome, hget]

theorem adopted_eq_documented_iff {id : Str} (hid : Documented id) (received current : Str) :
    adopted received current = id ↔
      received = id ∧ checkSpecialCharacters id = false ∨ ¬ ValidIdentity received ∧ current = id := by
  unfold adopted
  by_cases hvalid : ValidIdentity received
  · rw [if_pos hvalid]
    constructor
    · rintro rfl
      exact Or.inl ⟨rfl, hvalid.2.1⟩
    · rintro (⟨hsame, -⟩ | ⟨hnot, -⟩)
      · exact hsame
      · exact absurd hvalid hnot
  · rw [if_neg hvalid]
    constructor
    · exact fun hsame => Or.inr ⟨hvalid, hsame⟩
    · rintro (⟨rfl, hspecial⟩ | ⟨-, hsame⟩)
      · exact absurd ⟨hid.1, hspecial, hid.2.2⟩ hvalid
      · exact hsame

theorem adopted_eq_current_iff (received current : Str) :
    adopted received current = current ↔ (ValidIdentity received → received = current) := by
  unfold adopted
  split
  next hvalid => exact ⟨fun hsame _ => hsame, fun h => h hvalid⟩
  next hvalid => exact iff_of_true rfl fun h => absurd h hvalid

/-- **Adoption**: every id over the documented alphabet is adopted and no other value, just when the ids
are within what the check lets through. -/
theorem adoptsDocumented_iff (body : Body) (hfirst : p.isFirstRequest = true) :
    AdoptsDocumented env p body ↔ AdoptableIds p body := by
  refine forall_congr' fun features => forall_congr' fun identity => forall_congr' fun id =>
    forall_congr' fun hfeatures => forall_congr' fun _ => and_congr ?_ ?_
  · refine forall_congr' fun hid => ?_
    rw [becomes_iff env p hfirst hfeatures, adopted_eq_documented_iff hid]
  · refine forall_congr' fun _ => ?_
    rw [becomes_iff env p hfirst hfeatures, adopted_eq_current_iff]

/-- A response that gives the partner and nothing else. -/
def partnerResponse (id : Str) : List Json :=
  [.object (plainFeature "A".toList [(rfcPartnerIdKeyStr, .string id)])]

theorem storedEntries_partnerResponse (id : Str) :
    storedEntries (partnerResponse id) = [(rfcPartnerIdKeyStr, id)] := by
  have hkey : normaliseKey rfcPartnerIdKeyStr = rfcPartnerIdKeyStr := by rfl
  have hentries : responseEntries (partnerResponse id) = [(rfcPartnerIdKeyStr, id)] := rfl
  rw [storedEntries, hentries, List.map_singleton, hkey]

theorem stringMembers_partnerResponse (id : Str) : StringMembers (visited (partnerResponse id)) := by
  intro feature hf child hc
  obtain rfl := List.mem_singleton.mp hf
  obtain rfl := List.mem_singleton.mp hc
  rfl

theorem receivedId_partnerResponse (id : Str) :
    receivedId p (partnerResponse id) rfcPartnerIdKeyStr = id := by
  have hvisited : visited (partnerResponse id) = partnerResponse id := rfl
  rw [receivedId, hvisited, storedEntries_partnerResponse]
  simp [lastValue]

theorem adoptsDocumented_sky :
    AdoptsDocumented .plain .fresh (responseBody (partnerResponse "sky".toList)) := by
  refine (adoptsDocumented_iff .plain .fresh (responseBody (partnerResponse "sky".toList)) rfl).mpr ?_
  intro features identity id hfeatures hid
  obtain rfl : partnerResponse "sky".toList = features := Option.some.inj hfeatures
  rw [storedEntries_partnerResponse] at hid
  obtain ⟨rfl, rfl⟩ : identity = .partner ∧ "sky".toList = id := by
    cases identity with
    | account =>
        have hother : lastValue [(rfcPartnerIdKeyStr, "sky".toList)] rfcAccountIdKeyStr = none := rfl
        cases hother.symm.trans hid
    | partner => exact ⟨rfl, Option.some.inj hid⟩
  refine ⟨fun _ => ⟨stringMembers_partnerResponse _, Or.inl ⟨?_, by decide⟩⟩, fun h => by cases h⟩
  exact receivedId_partnerResponse _ _

/-- The partner `sky-uk` is not adopted. -/
theorem not_adoptsDocumented_skyUk :
    ¬ AdoptsDocumented .plain .fresh (responseBody (partnerResponse "sky-uk".toList)) := by
  intro h
  have hadopts := (h _ .partner "sky-uk".toList rfl (by
    rw [storedEntries_partnerResponse]
    rfl)).1 (by decide)
  have hkept := ((becomes_iff .plain .fresh rfl rfl .partner "sky-uk".toList).mp hadopts).2
  rw [Identity.key, receivedId_partnerResponse] at hkept
  exact absurd hkept (by decide)

/-! ### A redo for valid data -/

/-- Neither empty nor `Unknown` in any letter case. -/
def Known (id : Str) : Prop := id ≠ [] ∧ stringCaseCompare id unknownStr = false

instance (id : Str) : Decidable (Known id) := inferInstanceAs (Decidable (_ ∧ _))

/-- After `Redo_With_Valid_Data` the next request carries an account or a partner that is known. -/
def RedoesWithData (body : Body) : Prop :=
  ∀ p', preProcessJsonResponse env body p = some p' → p'.rfcState = .redoWithValidData →
    Known p'.accountId ∨ Known p'.partnerId

/-- No identity makes the request go out again: none is unknown in the response, or missing there, that
is unknown to the processor too. -/
def NothingToResend (account partner : Str) : Prop :=
  ¬ (stringCaseCompare (orUnknown account) unknownStr = true ∧
      stringCaseCompare p.accountId unknownStr = true) ∧
    ¬ (stringCaseCompare partner unknownStr = true ∧ stringCaseCompare p.partnerId unknownStr = true)

/-- The processor has a known identity or is given one, or there is no redo. -/
def DataOrNoRedo (body : Body) : Prop :=
  Known p.accountId ∨ Known p.partnerId ∨
    (∃ features, body.features = some features ∧
      (StringMembers (visited features) →
        ValidIdentity (receivedId p features rfcAccountIdKeyStr) ∨
        ValidIdentity (receivedId p features rfcPartnerIdKeyStr) ∨
        p.rfcState ≠ .redoWithValidData ∧
          (env.checkWhoamiSupport = true ∨
            NothingToResend p (receivedId p features rfcAccountIdKeyStr)
              (receivedId p features rfcPartnerIdKeyStr)))) ∨
    body.features = none ∧ p.rfcState ≠ .redoWithValidData

theorem known_adopted_iff (received current : Str) :
    Known (adopted received current) ↔ ValidIdentity received ∨ Known current := by
  unfold adopted
  split
  next hvalid => exact iff_of_true ⟨hvalid.1, hvalid.2.2⟩ (Or.inl hvalid)
  next hvalid => exact (or_iff_right hvalid).symm

theorem resentState_eq_redo_iff (state : RfcState) (again : Prop) [Decidable again] :
    resentState env state again = .redoWithValidData ↔
      state = .redoWithValidData ∨ again ∧ env.checkWhoamiSupport = false := by
  unfold resentState
  split
  next h => exact iff_of_true rfl (Or.inr h)
  next h => exact (or_iff_left h).symm

/-- Without a valid identity in the response there is a redo when something is to be resent. -/
theorem resends_iff {account partner : Str} (haccount : ¬ ValidIdentity account)
    (hpartner : ¬ ValidIdentity partner) :
    Resends (orUnknown account) p.accountId ∨ Resends partner p.partnerId ↔
      ¬ NothingToResend p account partner := by
  unfold Resends NothingToResend
  rw [validIdentity_orUnknown_iff, or_iff_right haccount, or_iff_right hpartner, not_and_or, not_not,
    not_not]

/-- **The redo**: it is for the sake of a known identity just when there is one. -/
theorem redoesWithData_iff (body : Body) (hfirst : p.isFirstRequest = true) :
    RedoesWithData env p body ↔ DataOrNoRedo env p body := by
  unfold RedoesWithData DataOrNoRedo
  cases hfeatures : body.features with
  | none =>
      have hkept : preProcessJsonResponse env body p = some p := by
        rw [preProcessJsonResponse, if_pos (Or.inr hfirst), hfeatures]
      simp only [hkept, Option.some.injEq, forall_eq', reduceCtorEq, false_and, exists_false, false_or,
        true_and]
      tauto
  | some features =>
      simp only [Option.some.injEq, exists_eq_left', reduceCtorEq, false_and, or_false]
      obtain ⟨hstrings, hnone⟩ | ⟨hstrings, p', hsome, htakes⟩ := preProcess_first env p hfirst hfeatures
      · simp [hstrings, hnone]
      · simp only [hsome, Option.some.injEq, forall_eq', htakes.accountId, htakes.partnerId,
          htakes.resends, known_adopted_iff, resentState_eq_redo_iff, hstrings, forall_const]
        generalize receivedId p features rfcAccountIdKeyStr = account
        generalize receivedId p features rfcPartnerIdKeyStr = partner
        by_cases haccount : ValidIdentity account
        · simp [haccount]
        · by_cases hpartner : ValidIdentity partner
          · simp [hpartner]
          · rw [resends_iff p haccount hpartner]
            simp only [haccount, hpartner, false_or]
            cases env.checkWhoamiSupport with
            | false => 
                simp
                tauto
            | true => 
                simp
                tauto

/-- The partner of the processor is known. -/
theorem redoesWithData_sky :
    RedoesWithData .plain .fresh (responseBody (partnerResponse "sky".toList)) :=
  (redoesWithData_iff .plain .fresh (responseBody (partnerResponse "sky".toList)) rfl).mpr
    (Or.inr (Or.inl (by decide)))

/-- Nothing is known, nothing is received, and the request goes out again. -/
theorem not_redoesWithData_unknown :
    ¬ RedoesWithData .plain { Processor.fresh with partnerId := unknownStr } (responseBody []) := by
  intro h
  obtain ⟨hstrings, -⟩ | ⟨-, p', hsome, htakes⟩ := preProcess_first .plain
    { Processor.fresh with partnerId := unknownStr } rfl (features_responseBody [])
  · exact hstrings fun feature hf => absurd hf List.not_mem_nil
  · have hknown := h p' hsome (htakes.resends.mpr (by decide))
    rw [htakes.accountId, htakes.partnerId] at hknown
    exact absurd hknown (by decide)

end RfcMgr
