import RfcMgr.Apply
import RfcMgr.Identity
import RfcMgr.SuppressedParams

/-! Who frees the parsed response. `GetRuntimeFeatureControlJSON` frees it when it finds no features
array, and its three callers free it behind their last look at it. -/

namespace RfcMgr.JsonOwnership

/-! ### The life of a document -/

/-- What is done to the document: a successful `ParseJsonStr`, a walk over its nodes, `FreeJson`. -/
inductive JsonCall where
  | parse | walk | free
  deriving DecidableEq

inductive Doc where
  | absent | live | freed
  deriving DecidableEq

/-- `none` is a use of a document that is not there. -/
def JsonCall.act : Doc → JsonCall → Option Doc
  | .absent, .parse => some .live
  | .live, .walk => some .live
  | .live, .free => some .freed
  | _, _ => none

def follow (doc : Doc) (calls : List JsonCall) : Option Doc := calls.foldlM JsonCall.act doc

/-- No call meets a document that is not there, and a function that returns leaves none behind. -/
def Owned (calls : List JsonCall) (returned : Prop) : Prop :=
  ∃ doc, follow .absent calls = some doc ∧ (returned → doc ≠ .live)

theorem follow_append (doc : Doc) (front back : List JsonCall) :
    follow doc (front ++ back) = (follow doc front).bind fun doc => follow doc back := by
  rw [follow, List.foldlM_append]
  rfl

theorem follow_freed {calls : List JsonCall} {doc : Doc} (h : follow .freed calls = some doc) :
    calls = [] := by
  cases calls with
  | nil => rfl
  | cons call calls => cases call <;> cases h

theorem follow_live_ne_absent (calls : List JsonCall) : follow .live calls ≠ some .absent := by
  induction calls with
  | nil => simp [follow]
  | cons call calls ih =>
      cases call with
      | parse =>
          intro h
          cases h
      | walk => exact ih
      | free =>
          intro h
          rw [follow_freed h] at h
          cases h

/-- A document ends up freed exactly when its last call is the only `FreeJson`. -/
theorem follow_live_eq_freed_iff (calls : List JsonCall) :
    follow .live calls = some .freed ↔ ∃ walks, calls = List.replicate walks .walk ++ [.free] := by
  induction calls with
  | nil => simp [follow]
  | cons call calls ih =>
      cases call with
      | parse =>
          constructor
          · intro h
            cases h
          · rintro ⟨walks, h⟩
            cases walks <;> cases h
      | walk =>
          show follow .live calls = some .freed ↔ _
          rw [ih]
          constructor
          · rintro ⟨walks, rfl⟩
            exact ⟨walks + 1, rfl⟩
          · rintro ⟨walks, h⟩
            cases walks with
            | zero => cases h
            | succ walks => exact ⟨walks, (List.cons.inj h).2⟩
      | free =>
          show follow .freed calls = some .freed ↔ _
          constructor
          · intro h
            rw [follow_freed h]
            exact ⟨0, rfl⟩
          · rintro ⟨walks, h⟩
            cases walks with
            | zero =>
                rw [(List.cons.inj h).2]
                rfl
            | succ walks => cases h

/-- What ownership means for a function that parses a document and returns. -/
theorem owned_parsed_iff {calls : List JsonCall} {returned : Prop} (hreturned : returned) :
    Owned (.parse :: calls) returned ↔ ∃ walks, calls = List.replicate walks .walk ++ [.free] := by
  rw [← follow_live_eq_freed_iff]
  constructor
  · rintro ⟨doc, hfollow, hdoc⟩
    have hlive : follow .live calls = some doc := hfollow
    cases doc with
    | absent => exact absurd hlive (follow_live_ne_absent calls)
    | live => exact absurd rfl (hdoc hreturned)
    | freed => exact hlive
  · intro h
    exact ⟨.freed, h, fun _ h => by cases h⟩

/-! ### The calls of the three functions -/

/-- The calls of `GetRuntimeFeatureControlJSON`. -/
def featureControlCalls (pJson : Json) : List JsonCall :=
  .walk ::
    match pJson.getJsonItem "featureControl".toList with
    | none => [.free]
    | some featureControl =>
        -- `!features || !IsJsonArray(features)`
        .walk ::
          if ((featureControl.getJsonItem "features".toList).bind Json.arrayItems).isNone then [.free]
          else []

/-- A walk over the features, a null pointer having none. -/
def walkFeatures (array : Option (List Json)) : List JsonCall :=
  match array with
  | none => []
  | some _ => [.walk]

def preProcessCalls (body : Body) (p : Processor) : List JsonCall :=
  if p.rfcState = .init ∨ p.isFirstRequest = true then
    match body with
    | none => []
    | some pJson =>
        .parse :: featureControlCalls pJson ++
          match getRuntimeFeatureControlJSON pJson with
          | none => []
          | some features =>
              match createConfigDataValueMap features p.rfcKeyAndValueMap with
              | none => [.walk]
              | some _ => [.walk, .free]
  else []

/-- `ProcessJsonResponse`, STB build. -/
def processCalls (env : Env) (body : Body) (st : St) : List JsonCall :=
  let st := st.log (.apply body)
  match body with
  | none => []
  | some pJson =>
      .parse :: featureControlCalls pJson ++
        match getRuntimeFeatureControlJSON pJson with
        | none => []
        | some features =>
            let (_, dev) := writeFeatures features [] st.dev
            match processXconfResponseConfigDataPart env features { st with dev := dev } with
            | .crash _ => [.walk, .walk]
            | .ok _ _ => [.walk, .walk, .free]

/-- `ProcessJsonResponseB`, which goes on when there is no features array. -/
def processCallsB (env : Rdkb.Env) (body : Body) (st : Rdkb.St) : List JsonCall :=
  match st.rbusOpen env with
  | (false, _) => []
  | (true, st) =>
      let st := Rdkb.setInitial env st
      match body with
      | none => []
      | some pJson =>
          let array := getRuntimeFeatureControlJSON pJson
          let features := array.getD []
          .parse :: featureControlCalls pJson ++ walkFeatures array ++
            match Exec.forList (Rdkb.parseFeature env) features false st with
            | .crash _ => []
            | .ok _ st =>
                walkFeatures array ++
                  match Rdkb.processXconfResponseConfigDataPart env features
                    (Rdkb.setClearDBEnd env st) with
                  | .crash _ => []
                  | .ok _ _ => [.free]

/-! ### Ownership -/

theorem follow_featureControlCalls (pJson : Json) :
    follow .live (featureControlCalls pJson) =
      some (if (getRuntimeFeatureControlJSON pJson).isSome then .live else .freed) := by
  unfold featureControlCalls getRuntimeFeatureControlJSON
  cases pJson.getJsonItem "featureControl".toList with
  | none => rfl
  | some featureControl =>
      show follow .live (.walk :: .walk ::
          if ((featureControl.getJsonItem "features".toList).bind Json.arrayItems).isNone then [.free]
          else []) =
        some (if ((featureControl.getJsonItem "features".toList).bind Json.arrayItems).isSome then .live
          else .freed)
      cases (featureControl.getJsonItem "features".toList).bind Json.arrayItems with
      | none => rfl
      | some features => rfl

/-- What is left to the caller behind `GetRuntimeFeatureControlJSON`. -/
theorem owned_parse_iff (pJson : Json) (calls : List JsonCall) (returned : Prop) :
    Owned (.parse :: featureControlCalls pJson ++ calls) returned ↔
      ∃ doc, follow (if (getRuntimeFeatureControlJSON pJson).isSome then .live else .freed) calls =
        some doc ∧ (returned → doc ≠ .live) := by
  have hfollow : follow .absent (.parse :: featureControlCalls pJson ++ calls) =
      follow (if (getRuntimeFeatureControlJSON pJson).isSome then .live else .freed) calls := by
    show follow .live (featureControlCalls pJson ++ calls) = _
    rw [follow_append, follow_featureControlCalls]
    rfl
  rw [Owned, hfollow]

theorem owned_nil (returned : Prop) : Owned [] returned := ⟨.absent, rfl, fun _ h => by cases h⟩

theorem owned_preProcess (env : Env) (body : Body) (p : Processor) :
    Owned (preProcessCalls body p) ((preProcessJsonResponse env body p).isSome) := by
  unfold preProcessCalls preProcessJsonResponse
  split
  · cases body with
    | none => exact owned_nil _
    | some pJson =>
        rw [owned_parse_iff]
        simp only [Body.features, Option.bind_some]
        cases getRuntimeFeatureControlJSON pJson with
        | none => exact ⟨.freed, rfl, fun _ h => by cases h⟩
        | some features =>
            simp only
            cases createConfigDataValueMap features p.rfcKeyAndValueMap with
            | none => exact ⟨.live, rfl, fun h => by cases h⟩
            | some map => exact ⟨.freed, rfl, fun _ h => by cases h⟩
  · exact owned_nil _

theorem owned_process (env : Env) (body : Body) (st : St) :
    Owned (processCalls env body st) (processJsonResponse env body st).Returned := by
  unfold processCalls processJsonResponse
  cases body with
  | none => exact owned_nil _
  | some pJson =>
      simp only
      rw [owned_parse_iff]
      simp only [Body.features, Option.bind_some]
      cases getRuntimeFeatureControlJSON pJson with
      | none => exact ⟨.freed, rfl, fun _ h => by cases h⟩
      | some features =>
          simp only
          generalize processXconfResponseConfigDataPart env features _ = part
          cases part with
          | ok => exact ⟨.freed, rfl, fun _ h => by cases h⟩
          | crash => exact ⟨.live, rfl, fun h => by cases h⟩

/-- The bus does not open, the body does not parse, it has a features array, or the second pass dies on
a parameter that the map still holds from before. -/
def FreedOnceB (env : Rdkb.Env) (body : Body) (st : Rdkb.St) : Prop :=
  env.rbusOpen st.calls = false ∨ body = none ∨ body.features.isSome ∨
    ¬ (Rdkb.processXconfResponseConfigDataPart env []
      (Rdkb.setClearDBEnd env (Rdkb.setInitial env (st.call .rbusOpen)))).Returned

theorem owned_processB_iff (env : Rdkb.Env) (body : Body) (st : Rdkb.St) :
    Owned (processCallsB env body st) (Rdkb.processJsonResponseB env body st).Returned ↔
      FreedOnceB env body st := by
  unfold processCallsB Rdkb.processJsonResponseB FreedOnceB Rdkb.St.rbusOpen
  cases hopen : env.rbusOpen st.calls with
  | false => exact iff_of_true (owned_nil _) (Or.inl rfl)
  | true =>
      cases body with
      | none => exact iff_of_true (owned_nil _) (Or.inr (Or.inl rfl))
      | some pJson =>
          simp only [Body.features, Option.bind_some, reduceCtorEq, false_or]
          rw [List.append_assoc, owned_parse_iff]
          cases getRuntimeFeatureControlJSON pJson with
          | none =>
              simp only [Option.getD_none, Exec.forList_nil, Exec.bind_ok]
              generalize Rdkb.processXconfResponseConfigDataPart env [] _ = part
              cases part with
              | ok =>
                  -- the second `FreeJson`
                  refine iff_of_false ?_ (by simp [Exec.Returned])
                  rintro ⟨doc, h, -⟩
                  cases h
              | crash =>
                  refine iff_of_true ⟨.freed, rfl, fun _ h => by cases h⟩ (Or.inr fun h => ?_)
                  exact h
          | some features =>
              refine iff_of_true ?_ (Or.inl rfl)
              simp only [Option.getD_some]
              generalize Exec.forList (Rdkb.parseFeature env) features false _ = first
              cases first with
              | crash => exact ⟨.live, rfl, fun h => by cases h⟩
              | ok rfcRebootCronNeeded st =>
                  simp only [Exec.bind_ok]
                  generalize Rdkb.processXconfResponseConfigDataPart env features _ = part
                  cases part with
                  | ok => exact ⟨.freed, rfl, fun _ h => by cases h⟩
                  | crash => exact ⟨.live, rfl, fun h => by cases h⟩

/-- With no parameter left in the map the second pass gets through a response without features. -/
theorem returned_of_empty (env : Rdkb.Env) {st : Rdkb.St}
    (hmap : st.proc.rfcKeyAndValueMap.isEmpty = true) :
    (Rdkb.processXconfResponseConfigDataPart env [] st).Returned := by
  simp only [Rdkb.processXconfResponseConfigDataPart, createConfigDataValueMap, hmap, if_true]
  trivial

/-- The bodies that are freed once in every state. -/
theorem owned_processB_always_iff (body : Body) :
    (∀ env st, Owned (processCallsB env body st) (Rdkb.processJsonResponseB env body st).Returned) ↔
      body = none ∨ body.features.isSome := by
  simp only [owned_processB_iff]
  constructor
  · intro h
    obtain hopen | hnone | hfeatures | hdies := h Rdkb.allTrue ⟨.fresh, [], false⟩
    · cases hopen
    · exact Or.inl hnone
    · exact Or.inr hfeatures
    · exact absurd (returned_of_empty _ rfl) hdies
  · rintro (hnone | hfeatures) env st
    · exact Or.inr (Or.inl hnone)
    · exact Or.inr (Or.inr (Or.inl hfeatures))

/-- **Ownership**: the parsed response is freed once by the two STB functions, whatever the body; the
RDKB one frees it again when there is no features array. -/
theorem owned_iff (body : Body) (env : Env) (p : Processor) (st : St) (envB : Rdkb.Env)
    (stB : Rdkb.St) :
    Owned (preProcessCalls body p) ((preProcessJsonResponse env body p).isSome) ∧
      Owned (processCalls env body st) (processJsonResponse env body st).Returned ∧
      (Owned (processCallsB envB body stB) (Rdkb.processJsonResponseB envB body stB).Returned ↔
        FreedOnceB envB body stB) ∧
      ((∀ env st,
        Owned (processCallsB env body st) (Rdkb.processJsonResponseB env body st).Returned) ↔
          body = none ∨ body.features.isSome) :=
  ⟨owned_preProcess env body p, owned_process env body st, owned_processB_iff envB body stB,
    owned_processB_always_iff body⟩

/-- `{}` as the response. -/
theorem not_owned_emptyObject :
    ¬ Owned (processCallsB Rdkb.allTrue (some (.object [])) ⟨.fresh, [], false⟩)
      (Rdkb.processJsonResponseB Rdkb.allTrue (some (.object [])) ⟨.fresh, [], false⟩).Returned := by
  rintro ⟨doc, hfollow, -⟩
  have htwice : processCallsB Rdkb.allTrue (some (.object [])) ⟨.fresh, [], false⟩ =
      [.parse, .walk, .free, .free] := by rfl
  rw [htwice] at hfollow
  cases hfollow

end RfcMgr.JsonOwnership
