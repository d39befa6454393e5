import RfcMgr.Lifetime
import RfcMgr.KeptAccount
import RfcMgr.RefusedWrites

/-! The hash that goes with a request. A server that knows it answers 304, and the manager takes the
configuration it has for the current one. The hash in the RFC store is only ever that of the last
applied response, with the parameters as that response left them, so this is safe: over any starts, with
any failures between them. -/

namespace RfcMgr

/-- The parameters that are set once a response has been dealt with. -/
def outcomeKeys : List Str := [rfcConfigSetHash, rfcConfigSetTime, xconfSelectorKeyStr, xconfUrlKeyStr]

/-- Two stores differ in these at most. -/
def SameParams (store store' : Str → Option Str) : Prop := ∀ key ∉ outcomeKeys, store' key = store key

theorem SameParams.refl (store : Str → Option Str) : SameParams store store := fun _ _ => rfl

theorem SameParams.trans {store store' store'' : Str → Option Str} (h : SameParams store store')
    (h' : SameParams store' store'') : SameParams store store'' :=
  fun key hkey => (h' key hkey).trans (h key hkey)

/-- The hostif takes every set of the hash. -/
def TakesHash (h : Hostif) : Prop := ∀ dev value, Device.Accepts h dev rfcConfigSetHash value

section Outcome

variable (env : Env) (st : St)

theorem outcomeKeys_ne_clearDBKey : ∀ key ∈ outcomeKeys, key ≠ clearDBKey := by
  intro key hkey
  simp only [outcomeKeys, List.mem_cons, List.not_mem_nil, or_false] at hkey
  rcases hkey with rfl | rfl | rfl | rfl
  · exact toList_ne (by simp)
  · exact toList_ne (by simp)
  · exact toList_ne (by simp)
  · exact toList_ne (by simp)

theorem sameParams_set {key : Str} (hkey : key ∈ outcomeKeys) (value : Str) :
    SameParams st.dev.rfcStore (st.set env key value).2.dev.rfcStore := by
  intro other hother
  have hne : other ≠ key := fun h => hother (h ▸ hkey)
  exact set_rfcStore_of_ne env st hne (outcomeKeys_ne_clearDBKey key hkey) value

theorem hash_mem_outcomeKeys : rfcConfigSetHash ∈ outcomeKeys := by simp [outcomeKeys]
theorem time_mem_outcomeKeys : rfcConfigSetTime ∈ outcomeKeys := by simp [outcomeKeys]
theorem selector_mem_outcomeKeys : xconfSelectorKeyStr ∈ outcomeKeys := by simp [outcomeKeys]
theorem url_mem_outcomeKeys : xconfUrlKeyStr ∈ outcomeKeys := by simp [outcomeKeys]

theorem set_hash (htakes : TakesHash env.hostif) (value : Str) :
    (st.set env rfcConfigSetHash value).2.dev.rfcStore rfcConfigSetHash = some value := by
  have hset := Device.setRFCProperty_of_accepts env.hostif st.dev rfcConfigSetHash value
    (htakes st.dev value)
  refine (congrFun hset rfcConfigSetHash).trans ?_
  rw [Device.storeAfterSet, if_neg (outcomeKeys_ne_clearDBKey _ hash_mem_outcomeKeys),
    Function.update_self]

/-- A set of another outcome keeps the hash. -/
theorem set_other_hash {key : Str} (hkey : key ∈ outcomeKeys) (hne : rfcConfigSetHash ≠ key)
    (value : Str) : (st.set env key value).2.dev.rfcStore rfcConfigSetHash =
      st.dev.rfcStore rfcConfigSetHash :=
  set_rfcStore_of_ne env st hne (outcomeKeys_ne_clearDBKey key hkey) value

theorem storeXconfEndpointMetadata_store :
    SameParams st.dev.rfcStore (storeXconfEndpointMetadata env st).dev.rfcStore ∧
      (storeXconfEndpointMetadata env st).dev.rfcStore rfcConfigSetHash =
        st.dev.rfcStore rfcConfigSetHash := by
  have hselector : rfcConfigSetHash ≠ xconfSelectorKeyStr := toList_ne (by simp)
  have hurl : rfcConfigSetHash ≠ xconfUrlKeyStr := toList_ne (by simp)
  have hmid := set_other_hash env st selector_mem_outcomeKeys hselector st.proc.rfcSelectOpt
  have hparams := sameParams_set env st selector_mem_outcomeKeys st.proc.rfcSelectOpt
  rw [storeXconfEndpointMetadata]
  generalize (st.set env xconfSelectorKeyStr st.proc.rfcSelectOpt).2 = mid at hmid hparams ⊢
  exact ⟨hparams.trans (sameParams_set env mid url_mem_outcomeKeys mid.proc.xconfServerUrl),
    (set_other_hash env mid url_mem_outcomeKeys hurl mid.proc.xconfServerUrl).trans hmid⟩

/-- Hash and time are set one after the other. -/
theorem updateHashAndTime_store (htakes : TakesHash env.hostif) (hash value : Str) :
    SameParams st.dev.rfcStore
        (updateTimeInDB env value (updateHashInDB env hash st)).dev.rfcStore ∧
      (updateTimeInDB env value (updateHashInDB env hash st)).dev.rfcStore rfcConfigSetHash =
        some hash := by
  have hhash : (updateHashInDB env hash st).dev.rfcStore rfcConfigSetHash = some hash :=
    set_hash env st htakes hash
  have hparams : SameParams st.dev.rfcStore (updateHashInDB env hash st).dev.rfcStore :=
    sameParams_set env st hash_mem_outcomeKeys hash
  generalize updateHashInDB env hash st = mid at hhash hparams ⊢
  exact ⟨hparams.trans (sameParams_set env mid time_mem_outcomeKeys value),
    (set_other_hash env mid time_mem_outcomeKeys (toList_ne (by simp)) value).trans hhash⟩

/-- What is stored behind an apply step, the hash that its header gives included. -/
theorem storeOutcome_success (htakes : TakesHash env.hostif) {header hash : Str}
    (hheader : configSetHashValue header = some hash) :
    SameParams st.dev.rfcStore (storeOutcome env header .success st).dev.rfcStore ∧
      (storeOutcome env header .success st).dev.rfcStore rfcConfigSetHash = some hash := by
  have hupdated : updateHashAndTimeInDB env header st =
      updateTimeInDB env env.configSetTime (updateHashInDB env hash st) := by
    simp only [updateHashAndTimeInDB, hheader]
  have hstored : storeOutcome env header .success st =
      storeXconfEndpointMetadata env (updateHashAndTimeInDB env header st) := rfl
  obtain ⟨hparams, hhash⟩ := updateHashAndTime_store env st htakes hash env.configSetTime
  obtain ⟨hsame, hkept⟩ := storeXconfEndpointMetadata_store env (updateHashAndTimeInDB env header st)
  rw [hstored]
  rw [hupdated] at hsame hkept ⊢
  exact ⟨hparams.trans hsame, hkept.trans hhash⟩

theorem storeOutcome_failure (htakes : TakesHash env.hostif) (header : Str) :
    SameParams st.dev.rfcStore (storeOutcome env header .failure st).dev.rfcStore ∧
      (storeOutcome env header .failure st).dev.rfcStore rfcConfigSetHash =
        some "CLEARED".toList := by
  have hstored : storeOutcome env header .failure st = storeXconfEndpointMetadata env
      (updateTimeInDB env "0".toList (updateHashInDB env "CLEARED".toList st)) := rfl
  obtain ⟨hparams, hhash⟩ := updateHashAndTime_store env st htakes "CLEARED".toList "0".toList
  obtain ⟨hsame, hkept⟩ := storeXconfEndpointMetadata_store env
    (updateTimeInDB env "0".toList (updateHashInDB env "CLEARED".toList st))
  rw [hstored]
  exact ⟨hparams.trans hsame, hkept.trans hhash⟩

end Outcome

/-! ### A crash in the apply step -/

/-- The configData of the response does not set the hash itself. -/
def SparesHash (body : Body) : Prop :=
  ∀ features, body.features = some features → rfcConfigSetHash ∉ configKeys features

theorem hashless_clearDB {env : Env} (hclears : ClearsStore env.hostif) (st : St) :
    HoldsOnly (· ≠ rfcConfigSetHash) (clearDB env st).dev.rfcStore := by
  have hempty : HoldsOnly (· ≠ rfcConfigSetHash)
      (St.set env ((rfcStashStoreParams env st).onDev fun dev => dev.overwrite tr181StoreFile [])
        clearDBKey clearValue).2.dev.rfcStore :=
    fun key hkey => absurd (congrFun (hclears _ clearValue) key) hkey
  have hbootstrap : bootstrapClearDBKey ≠ rfcConfigSetHash := toList_ne (by simp)
  have htime : configChangeTimeKey ≠ rfcConfigSetHash := toList_ne (by simp)
  have hmarked := (hempty.set env hbootstrap clearValue).set env htime env.configChangeTime
  simp only [clearDB]
  exact hmarked.rfcStashRetrieveParams env (toList_ne (by simp))

/-- A crash comes before the store is cleared, or leaves it without a hash. -/
theorem configDataPart_crash {env : Env} (hclears : ClearsStore env.hostif) {features : List Json}
    (hspares : rfcConfigSetHash ∉ configKeys features) {st t : St}
    (hmap : st.proc.rfcKeyAndValueMap = ∅)
    (hcrash : processXconfResponseConfigDataPart env features st = .crash t) :
    t.dev.rfcStore = st.dev.rfcStore ∨ t.dev.rfcStore rfcConfigSetHash = none := by
  cases hfilled : createConfigDataValueMap features st.proc.rfcKeyAndValueMap with
  | none =>
      simp only [processXconfResponseConfigDataPart, St.log_proc, hfilled] at hcrash
      cases hcrash
      exact .inl rfl
  | some map =>
      right
      rw [configDataPart_eq hfilled] at hcrash
      rw [hmap] at hfilled
      split at hcrash
      · cases hcrash
      · have hkeys : ∀ pair ∈ map.toList, pair.1 ≠ rfcConfigSetHash := by
          intro pair hpair heq
          have hstored := mem_storedEntries_of_filled hfilled hpair
          exact hspares (heq ▸ mem_configKeys_of_mem_storedEntries hstored)
        have hloop := (hashless_clearDB hclears (filled map st)).applyParams env hkeys ⟨[], []⟩
        generalize Exec.forList (applyParam env) map.toList ⟨[], []⟩ (clearDB env (filled map st)) = out
          at hcrash hloop
        cases out with
        | ok vars s => cases hcrash
        | crash s =>
            cases hcrash
            by_contra hsome
            exact hloop _ hsome rfl

/-! ### The store over a run -/

/-- An attempt was answered with this body and this hash. -/
def SentWith (attempts : Nat → Attempt) (body : Body) (hash : Str) : Prop :=
  ∃ i, (attempts i).body = body ∧ (attempts i).Answered ∧
    configSetHashValue (attempts i).header = some hash

/-- How the store stands when a run is over. -/
inductive StoreTold (attempts : Nat → Attempt) (dev : Device) (st : St) : Prop where
  | kept (hnone : applications st.events = [])
      (hhash : st.dev.rfcStore rfcConfigSetHash = dev.rfcStore rfcConfigSetHash ∨
        st.dev.rfcStore rfcConfigSetHash = some "CLEARED".toList)
      (hparams : SameParams dev.rfcStore st.dev.rfcStore)
  | wiped (hnone : applications st.events = []) (hhash : st.dev.rfcStore rfcConfigSetHash = none)
  | told (body : Body) (dev' : Device) (hash : Str) (happlied : applications st.events = [(body, dev')])
      (hsent : SentWith attempts body hash) (hhash : st.dev.rfcStore rfcConfigSetHash = some hash)
      (hparams : SameParams dev'.rfcStore st.dev.rfcStore)

/-- What the store is safe with: the hostif takes the clearing and the hash, every response names its
hash, and none sets it as a parameter. -/
structure Sound (env : Env) (attempts : Nat → Attempt) : Prop where
  clears : ClearsStore env.hostif
  takes : TakesHash env.hostif
  named : ∀ i, (attempts i).Answered → ∃ hash, configSetHashValue (attempts i).header = some hash
  spares : ∀ i, SparesHash (attempts i).body

theorem storeTold_applyResponse {env : Env} {attempts : Nat → Attempt} (hsound : Sound env attempts)
    {i : Nat} (hanswered : (attempts i).Answered) {dev : Device} {st : St} (hunmixed : Unmixed st)
    (hstore : st.dev.rfcStore = dev.rfcStore) :
    StoreTold attempts dev (applyResponse env (attempts i) st).state := by
  obtain ⟨hash, hheader⟩ := hsound.named i hanswered
  have hnone := applications_of_unapplied hunmixed.events
  have hstep := processJsonResponse_step env (attempts i).body st
  rw [applyResponse]
  generalize processJsonResponse env (attempts i).body st = out at hstep ⊢
  cases hstep with
  | rejected =>
      obtain ⟨hparams, hhash⟩ := storeOutcome_failure env (st.log (.apply (attempts i).body))
        hsound.takes (attempts i).header
      have hnothing := (storeOutcome_applications env (attempts i).header .failure
        (st.log (.apply (attempts i).body))).trans
          (@applications_of_part st.proc.rfcKeyAndValueMap _ _ _ hnone (.refl _))
      rw [St.log_dev, hstore] at hparams
      exact .kept hnothing (.inr hhash) hparams
  | @crashed features t hfeatures hcrash =>
      have hgrows := (applyFrame_featuresWritten env hfeatures st).events
      rw [hcrash] at hgrows
      have hnothing := applications_of_part hnone hgrows
      have hwritten : (featuresWritten features (attempts i).body st).dev.rfcStore = dev.rfcStore :=
        (writeFeatures_rfcStore ..).trans hstore
      have hmap : (featuresWritten features (attempts i).body st).proc.rfcKeyAndValueMap = ∅ :=
        hunmixed.map
      obtain hsame | hgone := configDataPart_crash hsound.clears (hsound.spares i features hfeatures)
        hmap hcrash
      · rw [hwritten] at hsame
        exact .kept hnothing (.inl (congrFun hsame _)) fun key _ => congrFun hsame key
      · exact .wiped hnothing hgone
  | @applied features t hfeatures hdone =>
      have hframe := (applyFrame_featuresWritten env hfeatures st).events
      rw [hdone] at hframe
      obtain ⟨hparams, hhash⟩ := storeOutcome_success env
        ((t.onDev fun _ => featuresListed features st.dev t).log
          (.applied (attempts i).body (featuresListed features st.dev t))) hsound.takes hheader
      exact .told _ _ hash (applications_of_success hnone hframe ..) ⟨i, rfl, hanswered, hheader⟩ hhash
        hparams

/-- A pass leaves the store alone, or ends the run with an apply step. -/
theorem untouched_pass {env : Env} {a : Attempt} {st s : St} (h : Untouched st s)
    {out : Exec St (Option ReturnCode)} (hpass : Pass env a s out) :
    Untouched st out.state ∨ ∃ p, a.Answered ∧
      Untouched st (preProcessed a (received env a s) p) ∧
        out = applyResponse env a (preProcessed a (received env a s) p) := by
  obtain ⟨_, _, _, _, hreplied⟩ := asked_replied env a s
  obtain ⟨_, _, _, _, hreceived⟩ := asked_received env a s
  have hunmixed := h.unmixed.received env a
  have hstore := hreceived.rfcStore.trans h.rfcStore
  cases hpass with
  | noBuffers | noHashParam =>
      have hresolved := asked_resolved env a s
      exact .inl ⟨h.unmixed.asked hresolved fun _ he => absurd he List.not_mem_nil,
        hresolved.rfcStore.trans h.rfcStore⟩
  | notFound =>
      exact .inl ⟨h.unmixed.asked (hreplied.onDev rfl) unapplied_exchange,
        hreplied.rfcStore.trans h.rfcStore⟩
  | notModified | failed =>
      exact .inl ⟨h.unmixed.asked hreplied unapplied_exchange, hreplied.rfcStore.trans h.rfcStore⟩
  | crashed => exact .inl ⟨hunmixed, hstore⟩
  | redirected p _ hpre => exact .inl ⟨hunmixed.preProcessed hpre, hstore⟩
  | resent p _ hpre =>
      obtain ⟨hmap, hflag, hevents⟩ := hunmixed.preProcessed hpre
      exact .inl ⟨⟨hmap, hflag, hevents⟩, hstore⟩
  | applied p hanswered hpre =>
      exact .inr ⟨p, hanswered, ⟨hunmixed.preProcessed hpre, hstore⟩, rfl⟩

theorem run_storeTold {env : Env} {attempts : Nat → Attempt} (hsound : Sound env attempts) {st : St}
    (hfresh : Fresh st) :
    StoreTold attempts st.dev (processRuntimeFeatureControlReq env attempts st).state := by
  have huntouched : ∀ s, Untouched st s → StoreTold attempts st.dev s := fun s h =>
    .kept (applications_of_unapplied h.unmixed.events) (.inl (congrFun h.rfcStore _))
      fun key _ => congrFun h.rfcStore key
  refine run_state_rule (P := fun _ s => Untouched st s) (Q := StoreTold attempts st.dev)
    ⟨hfresh.unmixed, rfl⟩ (fun _ _ h => h.unmixed.flag) (fun _ _ _ _ h hpass => untouched_round h hpass)
    (fun _ s _ h => huntouched s h) ?_
  intro i s out _ h hpass
  obtain hend | ⟨p, hanswered, hbefore, rfl⟩ := untouched_pass h hpass
  · exact huntouched _ hend
  · exact storeTold_applyResponse hsound hanswered hbefore.unmixed hbefore.rfcStore

/-! ### The stored hash over many starts -/

namespace Lifetime

/-- A hash in the store that is not `CLEARED` came with the last applied response, and the parameters
are as that response left them. -/
def HashTrue (dev : Device) (last : Option (Boot × Body × Device)) : Prop :=
  ∀ hash, dev.rfcStore rfcConfigSetHash = some hash → hash = "CLEARED".toList ∨
    ∃ b body dev', last = some (b, body, dev') ∧ SentWith b.attempts body hash ∧
      SameParams dev'.rfcStore dev.rfcStore

/-- The requirement on a start. -/
def SoundBoot (b : Boot) : Prop := Sound b.env b.attempts

theorem storeTold_boot {b : Boot} (hsound : SoundBoot b) (dev : Device) :
    StoreTold b.attempts dev (b.run dev).state := by
  have hgoes := b.run_goes dev
  generalize b.run dev = out at hgoes ⊢
  cases hgoes with
  | idle rc st _ hframe =>
      refine .kept ?_ (.inl (congrFun hframe.rfcStore _)) fun key _ => congrFun hframe.rfcStore key
      rw [Exec.state_ok, hframe.events]
      rfl
  | asks unlocked st hstarted =>
      have hasks : Sound (b.platform.env b.env unlocked) b.attempts := ⟨hsound.clears, hsound.takes,
        hsound.named, hsound.spares⟩
      have htold := run_storeTold hasks hstarted.fresh
      cases htold with
      | kept hnone hhash hparams =>
          rw [hstarted.rfcStore] at hhash hparams
          exact .kept hnone hhash hparams
      | wiped hnone hhash => exact .wiped hnone hhash
      | told body dev' hash happlied hsent hhash hparams =>
          exact .told body dev' hash happlied hsent hhash hparams

/-- One start keeps the stored hash true. -/
theorem HashTrue.step {b : Boot} (hsound : SoundBoot b) {dev : Device}
    {last : Option (Boot × Body × Device)} (h : HashTrue dev last) :
    HashTrue (b.run dev).state.dev
      (((applications (b.run dev).state.events).map fun application => (b, application)).getLast?.or
        last) := by
  intro hash hstored
  cases storeTold_boot hsound dev with
  | kept hnone hhash hparams =>
      rw [hnone]
      rcases hhash with hhash | hhash
      · refine (h hash (hhash ▸ hstored)).imp_right ?_
        rintro ⟨b', body, dev', hlast, hsent, hsame⟩
        exact ⟨b', body, dev', hlast, hsent, hsame.trans hparams⟩
      · rw [hhash] at hstored
        exact .inl (Option.some.inj hstored).symm
  | wiped hnone hhash =>
      rw [hhash] at hstored
      cases hstored
  | told body dev' hash' happlied hsent hhash hparams =>
      rw [hhash] at hstored
      obtain rfl := Option.some.inj hstored
      refine .inr ⟨b, body, dev', ?_, hsent, hparams⟩
      rw [happlied]
      rfl

/-- **The stored hash is never a false one**, over any starts. -/
theorem hashTrue_after {bs : List Boot} (hsound : ∀ b ∈ bs, SoundBoot b) {dev : Device}
    {last : Option (Boot × Body × Device)} (h : HashTrue dev last) :
    HashTrue (after bs dev) ((applied bs dev).getLast?.or last) := by
  induction bs generalizing dev last with
  | nil => exact h
  | cons b bs ih =>
      have hrest := ih (fun b' hb' => hsound b' (List.mem_cons_of_mem _ hb'))
        (h.step (hsound b List.mem_cons_self))
      rw [applied, List.getLast?_append, Option.or_assoc]
      exact hrest

end Lifetime

/-! ### A server that answers 304 -/

/-- A hash that fits into the buffer it is read into and is not taken for a quoted text. -/
def PlainHash (hash : Str) : Prop :=
  hash.length ≤ 1023 ∧ ¬ (2 ≤ hash.length ∧ hash.head? = some '"' ∧ hash.getLast? = some '"')

instance (hash : Str) : Decidable (PlainHash hash) := inferInstanceAs (Decidable (_ ∧ _))

/-- The values the manager sends or stores in place of a hash. -/
def markerHashes : List Str :=
  [[], "UPGRADE_HASH".toList, "OVERRIDE_HASH".toList, "CLEARED".toList]

theorem readValue_plain {hash : Str} (h : PlainHash hash) :
    Device.readValue (hash.take (maxParamLen - 1)) 1024 = hash := by
  have hlength := h.1
  have hstored : hash.take (maxParamLen - 1) = hash := List.take_of_length_le (by simp [maxParamLen]; omega)
  rw [hstored, Device.readValue, if_neg h.2, List.take_of_length_le (by omega)]

/-- What is sent with a request: a marker, or the hash as it is read. -/
theorem getStoredHashAndTime_hash (env : Env) (st : St) :
    (getStoredHashAndTime env st).1.1 ∈ markerHashes ∨ ∃ st' : St, st'.dev.rfcStore = st.dev.rfcStore ∧
      (st'.read env rfcConfigSetHash 1024).1 = some (getStoredHashAndTime env st).1.1 := by
  have hretrieve : ∀ s : St, s.dev.rfcStore = st.dev.rfcStore →
      (retrieveHashAndTimeFromPreviousDataSet env s).1.1 ∈ markerHashes ∨
        ∃ st' : St, st'.dev.rfcStore = st.dev.rfcStore ∧ (st'.read env rfcConfigSetHash 1024).1 =
          some (retrieveHashAndTimeFromPreviousDataSet env s).1.1 := by
    intro s hs
    simp only [retrieveHashAndTimeFromPreviousDataSet]
    cases hread : (s.read env rfcConfigSetHash 1024).1 with
    | none => exact .inl (by simp [markerHashes])
    | some hash => exact .inr ⟨s, hs, hread⟩
  have hstored : (storedHashAndTime env st).1.1 ∈ markerHashes ∨
      ∃ st' : St, st'.dev.rfcStore = st.dev.rfcStore ∧
        (st'.read env rfcConfigSetHash 1024).1 = some (storedHashAndTime env st).1.1 := by
    simp only [storedHashAndTime]
    split
    · split
      · split
        · exact hretrieve _ (St.read_rfcStore env st xconfSelectorKeyStr 1024)
        · exact .inl (by simp [markerHashes])
      · exact hretrieve _ rfl
    · exact .inl (by simp [markerHashes])
  simp only [getStoredHashAndTime]
  split
  · exact .inl (by simp [markerHashes])
  · exact hstored

/-- A hash that is sent and is none of the markers is in the store. -/
theorem stored_of_sent {env : Env} {st : St} (hdflt : env.hostif.dflt rfcConfigSetHash = [])
    (hmarker : (getStoredHashAndTime env st).1.1 ∉ markerHashes) :
    ∃ hash, st.dev.rfcStore rfcConfigSetHash = some hash ∧
      Device.readValue (hash.take (maxParamLen - 1)) 1024 = (getStoredHashAndTime env st).1.1 := by
  obtain h | ⟨st', hstore, hread⟩ := getStoredHashAndTime_hash env st
  · exact absurd h hmarker
  · have hne : (getStoredHashAndTime env st).1.1 ≠ [] := fun h => hmarker (by simp [h, markerHashes])
    generalize (getStoredHashAndTime env st).1.1 = sent at hread hne ⊢
    have hwild : ¬ rfcConfigSetHash.getLast? = some '.' := by decide
    have hempty : Device.readValue [] 1024 = [] := by decide
    simp only [St.read, Device.readRFCProperty, Device.getRFCParameter, hwild, if_false, hstore,
      hdflt] at hread
    split at hread
    · have hvalue := Option.some.inj hread
      split at hvalue
      · cases hhash : st.dev.rfcStore rfcConfigSetHash with
        | none =>
            rw [hhash, Option.getD_none, List.take_nil, hempty] at hvalue
            exact absurd hvalue.symm hne
        | some hash =>
            rw [hhash, Option.getD_some] at hvalue
            exact ⟨hash, rfl, hvalue⟩
      · rw [hempty] at hvalue
        exact absurd hvalue.symm hne
    · cases hread

/-- How a run that returns `SUCCESS` ends: with an applied response, or with a 304 to a request it
sent the stored hash with. -/
theorem run_success {env : Env} {attempts : Nat → Attempt} {st : St} (hfresh : Fresh st)
    (hsuccess : (processRuntimeFeatureControlReq env attempts st).value? = some .success) :
    applications (processRuntimeFeatureControlReq env attempts st).state.events ≠ [] ∨
      (processRuntimeFeatureControlReq env attempts st).state.dev.rfcStore = st.dev.rfcStore ∧
      ∃ s : St, s.dev.rfcStore = st.dev.rfcStore ∧ ∃ url requestUrl time curlRetCode,
        [.request url requestUrl (getStoredHashAndTime env s).1.1 time, .response curlRetCode 304] <:+:
          (processRuntimeFeatureControlReq env attempts st).state.events := by
  revert hsuccess
  refine run_rule (P := fun _ s => Untouched st s) (Q := fun out => out.value? = some .success →
    applications out.state.events ≠ [] ∨ out.state.dev.rfcStore = st.dev.rfcStore ∧
      ∃ s : St, s.dev.rfcStore = st.dev.rfcStore ∧ ∃ url requestUrl time curlRetCode,
        [.request url requestUrl (getStoredHashAndTime env s).1.1 time, .response curlRetCode 304] <:+:
          out.state.events) ⟨hfresh.unmixed, rfl⟩ (fun _ _ h => h.unmixed.flag)
    (fun _ _ _ _ h hpass => untouched_round h hpass) (fun _ _ h => nomatch h) (fun _ _ h => nomatch h)
    ?_ (fun _ _ _ _ _ _ h => nomatch h)
  intro i s r t _ h hpass hr
  obtain rfl : r = .success := Option.some.inj hr
  generalize hout : Exec.ok (some ReturnCode.success) t = out at hpass
  cases hpass with
  | noBuffers | noHashParam | notFound | failed | crashed | redirected | resent => cases hout
  | notModified _ hhttp =>
      cases hout
      obtain ⟨_, _, _, _, hreplied⟩ := asked_replied env (attempts i) s
      refine .inr ⟨hreplied.rfcStore.trans h.rfcStore, resolved env (attempts i) s, h.rfcStore, ?_⟩
      rw [Exec.state_ok, replied_events, hhttp]
      exact ⟨_, _, _, _, (List.suffix_append ..).isInfix⟩
  | applied p =>
      obtain ⟨dev', hmem⟩ := applied_mem_of_applyResponse hout.symm
      refine .inl fun hnil => ?_
      have happlied := mem_applications.mpr hmem
      rw [Exec.state_ok] at hnil
      rw [hnil] at happlied
      cases happlied

namespace Lifetime

/-- What the server keeps to during a start: `current` is the hash of the configuration it has for the
device, it sends that hash with a response, and it answers 304 to no other. -/
structure Serves (b : Boot) (dev : Device) (current : Str) : Prop where
  named : ∀ i, (b.attempts i).Answered → configSetHashValue (b.attempts i).header = some current
  notModified : ∀ url requestUrl hash time curlRetCode,
    [.request url requestUrl hash time, .response curlRetCode 304] <:+: (b.run dev).state.events →
      hash = current

/-- The last applied response is that of the current configuration, and the parameters are as it left
them. -/
def Synced (bs : List Boot) (dev : Device) (current : Str) : Prop :=
  ∃ b body dev', (applied bs dev).getLast? = some (b, body, dev') ∧ SentWith b.attempts body current ∧
    SameParams dev'.rfcStore (after bs dev).rfcStore

theorem applied_snoc (bs : List Boot) (b : Boot) (dev : Device) :
    applied (bs ++ [b]) dev = applied bs dev ++
      (applications (b.run (after bs dev)).state.events).map fun application => (b, application) := by
  induction bs generalizing dev with
  | nil => rw [List.nil_append, applied, applied, applied, List.append_nil, List.nil_append]; rfl
  | cons b' bs ih => rw [List.cons_append, applied, ih, applied, after, List.append_assoc]

/-- A server that sends a configuration with an account, and later finds it unchanged. -/
def accountBoot : Boot :=
  ⟨.plain, .plain, fun _ =>
    { Attempt.answered 200 accountResponse with header := "configSetHash: H1\r\n".toList }⟩

def unchangedBoot : Boot := ⟨.plain, .plain, fun _ => .answered 304 none⟩

def Event.sentHash : Event → Option Str
  | .request _ _ hash _ => some hash
  | _ => none

theorem takesHash_willing : TakesHash .willing := by
  intro dev value
  have hwild : ¬ rfcConfigSetHash.getLast? = some '.' := by decide
  refine ⟨?_, rfl⟩
  rw [Device.getRFCParameter, if_neg hwild]
  exact fun h => by cases h

theorem serves_unchanged : Serves unchangedBoot (after [accountBoot] .blank) "H1".toList := by
  constructor
  · intro i hanswered
    cases hanswered.http
  intro url requestUrl hash time curlRetCode hinfix
  have hhashes : ((unchangedBoot.run (after [accountBoot] .blank)).state.events.map Event.sentHash) =
      [some "H1".toList, none] := by decide +kernel
  have hlength := congrArg List.length hhashes
  rw [List.length_map] at hlength
  have hall := hinfix.eq_of_length hlength.symm
  rw [← hall] at hhashes
  simpa [Event.sentHash] using hhashes

end Lifetime

end RfcMgr
