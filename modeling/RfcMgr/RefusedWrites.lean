import RfcMgr.AppliedResponse
import RfcMgr.UpdateReports

/-! The hash of a response whose parameters the hostif has refused in part. The apply step returns
`SUCCESS` whatever becomes of the single writes, and the hash is stored behind it. -/

namespace RfcMgr

/-- A value that the apply step started in `start` had to write is refused. -/
def RefusesWrite (env : Env) (features : List Json) (start : St) : Prop :=
  ∃ key value vars s t, Visits env features start key value vars s ∧ Sets env key value vars s t ∧
    ¬ t.dev.Accepts env.hostif key value

/-- A run in which a write was refused does not leave the hash of its response in the store. -/
def Withheld (env : Env) (attempts : Nat → Attempt) (st : St) : Prop :=
  ∀ i s p features t hash, AppliesAt env attempts st i s p features t →
    configSetHashValue (attempts i).header = some hash →
    RefusesWrite env features (applyStart env (attempts i) s p features) →
    (processRuntimeFeatureControlReq env attempts st).state.dev.rfcStore rfcConfigSetHash ≠ some hash

/-- The response that the run applies in its `i`-th pass is behind its parameters and its files. -/
def appliedAt (attempts : Nat → Attempt) (env : Env) (i : Nat) (s : St) (p : Processor)
    (features : List Json) (t : St) : St :=
  appliedState (attempts i) features (preProcessed (attempts i) (received env (attempts i) s) p).dev t

/-! ### What is stored behind an apply step -/

theorem set_rfcStore_of_ne (env : Env) (st : St) {key other : Str} (hne : other ≠ key)
    (hclear : key ≠ clearDBKey) (value : Str) :
    (st.set env key value).2.dev.rfcStore other = st.dev.rfcStore other := by
  rcases Device.setRFCProperty_rfcStore env.hostif st.dev key value with hsame | hset
  · exact congrFun hsame other
  · refine (congrFun hset other).trans ?_
    rw [Device.storeAfterSet, if_neg hclear]
    exact Function.update_of_ne hne ..

theorem set_rfcStore_self (env : Env) (st : St) {key : Str} (hclear : key ≠ clearDBKey) (value : Str) :
    (st.set env key value).2.dev.rfcStore key =
      if st.dev.Accepts env.hostif key value then some value else st.dev.rfcStore key := by
  by_cases haccepts : st.dev.Accepts env.hostif key value
  · rw [if_pos haccepts]
    refine (congrFun (Device.setRFCProperty_of_accepts _ _ _ _ haccepts) key).trans ?_
    rw [Device.storeAfterSet, if_neg hclear]
    exact Function.update_self ..
  · rw [if_neg haccepts]
    exact congrFun (Device.setRFCProperty_of_not_accepts _ _ _ _ haccepts) key

/-- The keys that are set behind the hash are others. -/
theorem hash_ne_behind :
    rfcConfigSetHash ≠ clearDBKey ∧ rfcConfigSetTime ≠ clearDBKey ∧ xconfSelectorKeyStr ≠ clearDBKey ∧
      xconfUrlKeyStr ≠ clearDBKey ∧ rfcConfigSetHash ≠ rfcConfigSetTime ∧
      rfcConfigSetHash ≠ xconfSelectorKeyStr ∧ rfcConfigSetHash ≠ xconfUrlKeyStr :=
  ⟨toList_ne (by simp), toList_ne (by simp), toList_ne (by simp), toList_ne (by simp),
    toList_ne (by simp), toList_ne (by simp), toList_ne (by simp)⟩

theorem storeXconfEndpointMetadata_hash (env : Env) (u : St) :
    (storeXconfEndpointMetadata env u).dev.rfcStore rfcConfigSetHash =
      u.dev.rfcStore rfcConfigSetHash := by
  obtain ⟨-, -, hselectorClear, hurlClear, -, hselector, hurl⟩ := hash_ne_behind
  have hfirst := set_rfcStore_of_ne env u hselector hselectorClear u.proc.rfcSelectOpt
  have hsecond := set_rfcStore_of_ne env (u.set env xconfSelectorKeyStr u.proc.rfcSelectOpt).2 hurl
    hurlClear u.proc.xconfServerUrl
  rw [storeXconfEndpointMetadata, St.log_dev, ← hfirst, ← hsecond]
  rfl

theorem updateTimeInDB_hash (env : Env) (time : Str) (u : St) :
    (updateTimeInDB env time u).dev.rfcStore rfcConfigSetHash = u.dev.rfcStore rfcConfigSetHash := by
  obtain ⟨-, htimeClear, -, -, htime, -, -⟩ := hash_ne_behind
  exact set_rfcStore_of_ne env u htime htimeClear time

theorem storeOutcome_hash {env : Env} {header hash : Str} (u : St)
    (hheader : configSetHashValue header = some hash) :
    (storeOutcome env header .success u).dev.rfcStore rfcConfigSetHash =
      if u.dev.Accepts env.hostif rfcConfigSetHash hash then some hash
      else u.dev.rfcStore rfcConfigSetHash := by
  rw [← set_rfcStore_self env u hash_ne_behind.1 hash, storeOutcome, storeXconfEndpointMetadata_hash,
    updateHashAndTimeInDB, hheader, updateTimeInDB_hash]
  rfl

/-- **When a run leaves the hash of its response in the store**: what became of the single writes does
not matter. -/
theorem AppliesAt.hash_iff {env : Env} {attempts : Nat → Attempt} {st s t : St} {i : Nat}
    {p : Processor} {features : List Json} {hash : Str}
    (h : AppliesAt env attempts st i s p features t) (hfresh : Fresh st)
    (hheader : configSetHashValue (attempts i).header = some hash) :
    (processRuntimeFeatureControlReq env attempts st).state.dev.rfcStore rfcConfigSetHash = some hash ↔
      (appliedAt attempts env i s p features t).dev.Accepts env.hostif rfcConfigSetHash hash ∨
        (appliedAt attempts env i s p features t).dev.rfcStore rfcConfigSetHash = some hash := by
  rw [(h.run_eq hfresh).2, Exec.state_ok, storeOutcome_hash _ hheader]
  change (if (appliedAt attempts env i s p features t).dev.Accepts env.hostif rfcConfigSetHash hash
    then some hash else _) = some hash ↔ _
  split
  next haccepts => exact iff_of_true rfl (Or.inl haccepts)
  next hrefused => exact (or_iff_right hrefused).symm

/-- **When the hash of a response that was refused in part is withheld.** -/
theorem withheld_iff (env : Env) (attempts : Nat → Attempt) {st : St} (hfresh : Fresh st) :
    Withheld env attempts st ↔ ∀ i s p features t hash,
      AppliesAt env attempts st i s p features t →
      configSetHashValue (attempts i).header = some hash →
      RefusesWrite env features (applyStart env (attempts i) s p features) →
      ¬ (appliedAt attempts env i s p features t).dev.Accepts env.hostif rfcConfigSetHash hash ∧
        (appliedAt attempts env i s p features t).dev.rfcStore rfcConfigSetHash ≠ some hash := by
  have hpoint : ∀ i s p features t hash, AppliesAt env attempts st i s p features t →
      configSetHashValue (attempts i).header = some hash →
      ((processRuntimeFeatureControlReq env attempts st).state.dev.rfcStore rfcConfigSetHash ≠
          some hash ↔
        ¬ (appliedAt attempts env i s p features t).dev.Accepts env.hostif rfcConfigSetHash hash ∧
          (appliedAt attempts env i s p features t).dev.rfcStore rfcConfigSetHash ≠ some hash) := by
    intro i s p features t hash happlies hheader
    rw [ne_eq, happlies.hash_iff hfresh hheader, not_or]
  constructor
  · intro h i s p features t hash happlies hheader hrefuses
    exact (hpoint i s p features t hash happlies hheader).mp
      (h i s p features t hash happlies hheader hrefuses)
  · intro h i s p features t hash happlies hheader hrefuses
    exact (hpoint i s p features t hash happlies hheader).mpr
      (h i s p features t hash happlies hheader hrefuses)

theorem accepts_willing (dev : Device) (key value : Str) : dev.Accepts .willing key value := by
  refine ⟨?_, rfl⟩
  unfold Device.getRFCParameter
  split
  · exact nofun
  · exact nofun

/-- Nothing is refused. -/
theorem withheld_iff_plain : Withheld .plain (fun _ => hashedAttempt alone) .hashed := by
  apply (withheld_iff .plain (fun _ => hashedAttempt alone) fresh_hashed).mpr
  rintro i s p features t hash - - ⟨key, value, vars, s', t', -, -, hrefused⟩
  exact absurd (accepts_willing t'.dev key value) hrefused

/-- The component behind `Device.X.B` does not answer. -/
def failingOne : Env :=
  { Env.plain with hostif := { Hostif.willing with
      getReply := fun key _ =>
        if key = "Device.X.B".toList then ⟨.failure, false, some .string⟩
        else ⟨.success, true, some .string⟩
      setReply := fun key _ _ _ => if key = "Device.X.B".toList then .failure else .success } }

/-- A failed read counts as a change. -/
theorem paramCheck_failingOne (value : Str) (vars : ApplyVars) (s : St) :
    (paramCheck failingOne "Device.X.B".toList value vars s).changed = true := by
  have hwild : "Device.X.B".toList.getLast? ≠ some '.' := by simp
  have hreply : ∀ n, failingOne.hostif.getReply "Device.X.B".toList n =
      ⟨.failure, false, some .string⟩ := by
    intro n
    simp only [failingOne, if_true]
  have hread : (s.read failingOne "Device.X.B".toList 4096).1 = none := by
    simp only [St.read, Device.readRFCProperty, Device.getRFCParameter, if_neg hwild, hreply]
    rfl
  simp only [paramCheck, answers, checkOf, hread]

theorem not_withheld : ¬ Withheld failingOne (fun _ => hashedAttempt alone) .hashed := by
  intro h
  obtain ⟨hbreak, hstored, hheader⟩ : (requestPass failingOne (fun _ => hashedAttempt alone) 0
        (St.hashed.onProc chooseSelectOpt)).value? = some (some .success) ∧
      (requestPass failingOne (fun _ => hashedAttempt alone) 0
        (St.hashed.onProc chooseSelectOpt)).state.dev.rfcStore rfcConfigSetHash = some "H1".toList ∧
      configSetHashValue (hashedAttempt alone).header = some "H1".toList := by
    decide +kernel
  obtain ⟨p, features, t, happlies⟩ := (makesPass_hashed rfl alone).appliesAt fresh_hashed.flag
    (answered_hashedAttempt alone) hbreak
  obtain rfl : alone = features :=
    Option.some.inj ((features_responseBody alone).symm.trans happlies.body)
  have hmap : createConfigDataValueMap alone
      (applyStart failingOne (hashedAttempt alone) (St.hashed.onProc chooseSelectOpt) p
        alone).proc.rfcKeyAndValueMap = some (mapOf alone) := by
    rw [happlies.map_eq fresh_hashed]
    exact mapOf_eq (by decide)
  have hrefuses : RefusesWrite failingOne alone (applyStart failingOne (hashedAttempt alone)
      (St.hashed.onProc chooseSelectOpt) p alone) := by
    have hother : "Device.X.B".toList ≠ bootstrapXconfUrlKeyStr := toList_ne (by simp)
    refine ⟨_, _, _, _, _, visits_first hmap toList_mapOf_alone,
      ⟨paramCheck_failingOne _ _ _, by simp, if_neg hother⟩, ?_⟩
    intro haccepts
    have hset : ∀ n value type, failingOne.hostif.setReply "Device.X.B".toList n value type =
        .failure := by
      intro n value type
      simp only [failingOne, if_true]
    cases (hset ..).symm.trans haccepts.2
  exact h 0 _ p alone t _ happlies hheader hrefuses
    ((congrArg (fun s => s.dev.rfcStore rfcConfigSetHash) (happlies.run_state fresh_hashed)).trans hstored)

end RfcMgr
