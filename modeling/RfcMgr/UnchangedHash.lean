import RfcMgr.AppliedResponse
import RfcMgr.UpdateReports

/-! Whether a run asks for a reboot when the hash of its response is the one that was stored. The reboot
flag falls when `bkup_hash` is that hash; a URL validation in the middle of the apply step replaces
`bkup_hash` by what it reads after the store was cleared. -/

namespace RfcMgr

/-- The `ConfigSetHash` that is stored when a request is sent in `s`. -/
def storedHash (env : Env) (s : St) : Str :=
  (s.dev.rfcStore rfcConfigSetHash).getD (env.hostif.dflt rfcConfigSetHash)

/-- A run of a new processor on the firmware of the run before. -/
structure UnchangedStart (st : St) : Prop extends Fresh st where
  firmware : st.proc.lastFirmware = st.proc.firmwareVersion
  reboot : st.proc.isRebootRequired = false

/-- A run that applies a response with the stored hash asks for no reboot. -/
def NoReboot (env : Env) (attempts : Nat → Attempt) (st : St) : Prop :=
  ∀ i s p features t hash, AppliesAt env attempts st i s p features t →
    configSetHashValue (attempts i).header = some hash →
    stringCaseCompare (storedHash env s) hash = true →
    (processRuntimeFeatureControlReq env attempts st).state.proc.isRebootRequired = false

/-- The pass over `key` goes on to write it. -/
def Due (env : Env) (key value : Str) (vars : ApplyVars) (s : St) : Prop :=
  (paramCheck env key value vars s).changed = true ∧ value ≠ []

/-- What `bkup_hash` holds behind the parameters: the hash that the validation of the response's
bootstrap URL read, or without one the hash from before the apply step. -/
def KeptHash (env : Env) (features : List Json) (start : St) (kept : Str) : Prop :=
  (∃ value vars s, Visits env features start bootstrapXconfUrlKeyStr value vars s ∧
    Due env bootstrapXconfUrlKeyStr value vars s ∧
    kept = (processXconfUrl env value (paramRead env bootstrapXconfUrlKeyStr s)).state.proc.bkupHash) ∨
  (kept = start.proc.bkupHash ∧ ∀ value vars s,
    Visits env features start bootstrapXconfUrlKeyStr value vars s →
      ¬ Due env bootstrapXconfUrlKeyStr value vars s)

/-- The apply step started in `start` lets the reboot flag be low in the end: it does not raise it, or the
kept hash is the one of the response. -/
def Spared (env : Env) (features : List Json) (start : St) (hash : Str) : Prop :=
  (isMaintenanceEnabled env = true → ∀ key, ¬ ReportsUpdate env features start key) ∨
    ∃ kept, KeptHash env features start kept ∧ stringCaseCompare kept hash = true

/-! ### The hash behind the parameters -/

/-- A pass that goes on to write leaves the hash of the validation. -/
theorem applyParam_bkupHash_of_due {env : Env} {key value : Str} {vars : ApplyVars} {s : St}
    (hdue : Due env key value vars s) :
    (applyParam env (key, value) vars s).state.proc.bkupHash =
      (validated env key value (paramRead env key s)).state.proc.bkupHash := by
  have hstep := applyParam_step env key value vars s
  generalize applyParam env (key, value) vars s = out at hstep ⊢
  cases hstep with
  | unchanged hchanged => cases hchanged.symm.trans hdue.1
  | rejected _ hempty => exact absurd hempty hdue.2
  | crashed _ _ hvalidated | invalid _ _ hvalidated | written _ _ hvalidated =>
      rw [hvalidated]
      rfl

theorem applyParam_bkupHash_of_not_due {env : Env} {key value : Str} {vars : ApplyVars} {s : St}
    (hdue : ¬ Due env key value vars s) :
    (applyParam env (key, value) vars s).state.proc.bkupHash = s.proc.bkupHash := by
  have hstep := applyParam_step env key value vars s
  generalize applyParam env (key, value) vars s = out at hstep ⊢
  cases hstep with
  | unchanged | rejected => rfl
  | crashed hchanged hne | invalid hchanged hne | written hchanged hne =>
      exact absurd ⟨hchanged, hne⟩ hdue

theorem validated_bootstrap (env : Env) (value : Str) (s : St) :
    validated env bootstrapXconfUrlKeyStr value s = processXconfUrl env value s := if_pos rfl

/-- Other parameters leave the hash alone. -/
theorem applyParam_bkupHash_of_ne {env : Env} {key : Str} (hne : key ≠ bootstrapXconfUrlKeyStr)
    (value : Str) (vars : ApplyVars) (s : St) :
    (applyParam env (key, value) vars s).state.proc.bkupHash = s.proc.bkupHash := by
  by_cases hdue : Due env key value vars s
  · rw [applyParam_bkupHash_of_due hdue, validated, if_neg hne]
    rfl
  · exact applyParam_bkupHash_of_not_due hdue

theorem applyParams_bkupHash (env : Env) {pairs : List (Str × Str)}
    (hpairs : ∀ value, (bootstrapXconfUrlKeyStr, value) ∉ pairs) (vars : ApplyVars) (s : St) :
    (Exec.forList (applyParam env) pairs vars s).state.proc.bkupHash = s.proc.bkupHash := by
  refine Exec.forList_state (R := fun s t : St => t.proc.bkupHash = s.proc.bkupHash) (fun _ => rfl)
    (fun _ _ _ hst htu => htu.trans hst) ?_ vars s
  rintro ⟨key, value⟩ hmem vars s
  exact applyParam_bkupHash_of_ne (fun heq => hpairs value (heq ▸ hmem)) value vars s

/-- In a loop that comes to a bootstrap URL only its pass touches the hash, and only when it is set. -/
theorem applyParams_bkupHash_of_mem {env : Env} {earlier later : List (Str × Str)} {value : Str}
    (hearlier : ∀ value, (bootstrapXconfUrlKeyStr, value) ∉ earlier)
    (hlater : ∀ value, (bootstrapXconfUrlKeyStr, value) ∉ later) {vars vars' : ApplyVars} {s u : St}
    (hloop : Exec.forList (applyParam env) (earlier ++ (bootstrapXconfUrlKeyStr, value) :: later) vars s =
      .ok vars' u) :
    ∃ vars₁ s₁, Exec.forList (applyParam env) earlier vars s = .ok vars₁ s₁ ∧
      (Due env bootstrapXconfUrlKeyStr value vars₁ s₁ ∧ u.proc.bkupHash =
          (processXconfUrl env value (paramRead env bootstrapXconfUrlKeyStr s₁)).state.proc.bkupHash ∨
        ¬ Due env bootstrapXconfUrlKeyStr value vars₁ s₁ ∧ u.proc.bkupHash = s.proc.bkupHash) := by
  rw [Exec.forList_append] at hloop
  obtain ⟨vars₁, s₁, hbefore, hrest⟩ := Exec.bind_eq_ok.mp hloop
  rw [Exec.forList_cons] at hrest
  obtain ⟨vars₂, s₂, hpass, hbehind⟩ := Exec.bind_eq_ok.mp hrest
  have hs₁ : s₁.proc.bkupHash = s.proc.bkupHash := by
    have hkept := applyParams_bkupHash env hearlier vars s
    rwa [hbefore] at hkept
  have hu : u.proc.bkupHash = s₂.proc.bkupHash := by
    have hkept := applyParams_bkupHash env hlater vars₂ s₂
    rwa [hbehind] at hkept
  refine ⟨vars₁, s₁, hbefore, ?_⟩
  rw [hu]
  by_cases hdue : Due env bootstrapXconfUrlKeyStr value vars₁ s₁
  · have hkept := applyParam_bkupHash_of_due hdue
    rw [hpass, validated_bootstrap] at hkept
    exact Or.inl ⟨hdue, hkept⟩
  · have hkept := applyParam_bkupHash_of_not_due hdue
    rw [hpass] at hkept
    exact Or.inr ⟨hdue, hkept.trans hs₁⟩

theorem keptHash_of_part {env : Env} {features : List Json} {start t : St}
    (hpart : processXconfResponseConfigDataPart env features start = .ok () t) :
    KeptHash env features start t.proc.bkupHash := by
  cases hmap : createConfigDataValueMap features start.proc.rfcKeyAndValueMap with
  | none =>
      simp only [processXconfResponseConfigDataPart, St.log_proc, hmap] at hpart
      cases hpart
  | some map =>
      rw [configDataPart_eq hmap] at hpart
      by_cases hempty : map.isEmpty = true
      · rw [if_pos hempty] at hpart
        obtain ⟨-, rfl⟩ := Exec.ok.inj hpart
        refine Or.inr ⟨rfl, ?_⟩
        rintro value vars s ⟨map', earlier, later, hsome, hlist, -⟩
        obtain rfl : map = map' := Option.some.inj (hmap.symm.trans hsome)
        exact absurd hempty (by rw [isEmpty_eq_false hlist]; exact Bool.false_ne_true)
      · rw [if_neg hempty] at hpart
        obtain ⟨vars, u, hloop, hdone⟩ := Exec.bind_eq_ok.mp hpart
        obtain ⟨-, rfl⟩ := Exec.ok.inj hdone
        obtain ⟨account, stash, hclear⟩ := (clearFrame_clearDB env (filled map start)).proc
        have hstart : (clearDB env (filled map start)).proc.bkupHash = start.proc.bkupHash := by
          rw [hclear]
          rfl
        rw [loopDone, clearDBEnd_proc, St.onDev_proc]
        by_cases hgiven : ∃ value, (bootstrapXconfUrlKeyStr, value) ∈ map.toList
        · obtain ⟨value, hmem⟩ := hgiven
          obtain ⟨earlier, later, hlist⟩ := List.append_of_mem hmem
          obtain ⟨hearlier, hlater⟩ := other_keys hlist
          rw [hlist] at hloop
          obtain ⟨vars₁, s₁, hbefore, hkept⟩ := applyParams_bkupHash_of_mem hearlier hlater hloop
          have hvisits : Visits env features start bootstrapXconfUrlKeyStr value vars₁ s₁ :=
            ⟨map, earlier, later, hmap, hlist, hbefore⟩
          obtain ⟨hdue, hkept⟩ | ⟨hdue, hkept⟩ := hkept
          · exact Or.inl ⟨value, vars₁, s₁, hvisits, hdue, hkept⟩
          · refine Or.inr ⟨hkept.trans hstart, fun value' vars' s' hvisits' => ?_⟩
            obtain ⟨rfl, rfl, rfl⟩ := hvisits.unique hvisits'
            exact hdue
        · have hothers : ∀ value, (bootstrapXconfUrlKeyStr, value) ∉ map.toList :=
            fun value hmem => hgiven ⟨value, hmem⟩
          have hkept := applyParams_bkupHash env hothers ⟨[], []⟩ (clearDB env (filled map start))
          rw [hloop] at hkept
          refine Or.inr ⟨hkept.trans hstart, ?_⟩
          rintro value vars s ⟨map', earlier, later, hsome, hlist, -⟩
          obtain rfl : map = map' := Option.some.inj (hmap.symm.trans hsome)
          exact absurd (hlist ▸ List.mem_append_right _ List.mem_cons_self) (hothers value)

theorem KeptHash.unique {env : Env} {features : List Json} {start : St} {kept kept' : Str}
    (h : KeptHash env features start kept) (h' : KeptHash env features start kept') :
    kept' = kept := by
  rcases h with ⟨value, vars, s, hvisits, hdue, rfl⟩ | ⟨rfl, hnone⟩
  · rcases h' with ⟨value', vars', s', hvisits', -, rfl⟩ | ⟨-, hnone⟩
    · obtain ⟨rfl, rfl, rfl⟩ := hvisits.unique hvisits'
      rfl
    · exact absurd hdue (hnone value vars s hvisits)
  · rcases h' with ⟨value', vars', s', hvisits', hdue', -⟩ | ⟨rfl, -⟩
    · exact absurd hdue' (hnone value' vars' s' hvisits')
    · rfl

/-! ### The flag at the end of a run -/

theorem preProcess_reboot {env : Env} {body : Body} {p p' : Processor}
    (h : preProcessJsonResponse env body p = some p') :
    p'.isRebootRequired = p.isRebootRequired ∧ p'.bkupHash = p.bkupHash := by
  obtain ⟨features, map, -, -, -, rfl⟩ | ⟨-, -, rfl⟩ | ⟨rfl, -⟩ := preProcessJsonResponse_cases h
  · obtain ⟨_, _, _, _, _, _, _, heq, -⟩ :=
      preProcessFilled_spec env { p with rfcKeyAndValueMap := map }
    rw [heq]
    exact ⟨rfl, rfl⟩
  · exact ⟨rfl, rfl⟩
  · exact ⟨rfl, rfl⟩

/-- No round before the apply step raises the flag. -/
structure Lowered (s : St) : Prop where
  flag : s.proc.urlValidationInProgress = false
  reboot : s.proc.isRebootRequired = false

theorem Lowered.asked {s t : St} {es : List Event} (h : Lowered s) (hasked : Asked s t es) :
    Lowered t := by
  obtain ⟨url, b, hproc⟩ := hasked.proc
  refine ⟨?_, ?_⟩
  · rw [hproc]
    exact h.flag
  · rw [hproc]
    exact h.reboot

theorem Lowered.preProcessed {env : Env} {a : Attempt} {s : St} {p : Processor} (h : Lowered s)
    (hpre : preProcessJsonResponse env a.body (received env a s).proc = some p) :
    Lowered (preProcessed a (received env a s) p) := by
  obtain ⟨_, _, _, _, hreceived⟩ := asked_received env a s
  have hlowered := h.asked hreceived
  exact ⟨(preProcess_flag hpre).trans hlowered.flag, (preProcess_reboot hpre).1.trans hlowered.reboot⟩

theorem lowered_round {env : Env} {a : Attempt} {s t : St} (h : Lowered s)
    (hpass : Pass env a s (.ok none t)) : Lowered t := by
  obtain ⟨_, _, _, _, hreplied⟩ := asked_replied env a s
  generalize hout : (Exec.ok none t : Exec St (Option ReturnCode)) = out at hpass
  cases hpass with
  | noBuffers | notModified | crashed => cases hout
  | noHashParam =>
      obtain ⟨-, rfl⟩ := Exec.ok.inj hout
      exact h.asked (asked_resolved env a s)
  | notFound =>
      obtain ⟨-, rfl⟩ := Exec.ok.inj hout
      exact h.asked (hreplied.onDev rfl)
  | failed =>
      obtain ⟨-, rfl⟩ := Exec.ok.inj hout
      exact h.asked hreplied
  | redirected p _ hpre =>
      obtain ⟨-, rfl⟩ := Exec.ok.inj hout
      exact h.preProcessed hpre
  | resent p _ hpre =>
      obtain ⟨-, rfl⟩ := Exec.ok.inj hout
      obtain ⟨hflag, hreboot⟩ := h.preProcessed hpre
      exact ⟨hflag, hreboot⟩
  | applied => exact absurd hout applyResponse_ne_none

theorem MakesPass.lowered {env : Env} {attempts : Nat → Attempt} {st : St} {i : Nat} {s : St}
    (h : MakesPass env attempts st i s) (hstart : UnchangedStart st) : Lowered s :=
  h.invariant ⟨hstart.flag, hstart.reboot⟩ (fun _ hs => hs.flag) fun _ _ _ hs hpass =>
    lowered_round hs hpass

theorem storeOutcome_reboot {env : Env} {header hash : Str} {st : St}
    (hheader : configSetHashValue header = some hash) :
    (storeOutcome env header .success st).proc.isRebootRequired =
      if stringCaseCompare st.proc.bkupHash hash then false else st.proc.isRebootRequired := by
  have hmetadata : ∀ u, (storeXconfEndpointMetadata env u).proc = u.proc := fun _ => rfl
  have htime : ∀ time u, (updateTimeInDB env time u).proc = u.proc := fun _ _ => rfl
  rw [storeOutcome, hmetadata, updateHashAndTimeInDB, hheader, htime]
  rfl

/-- **The flag at the end of a run** that applies a response with a hash. -/
theorem AppliesAt.reboot_iff {env : Env} {attempts : Nat → Attempt} {st s t : St} {i : Nat}
    {p : Processor} {features : List Json} {hash : Str}
    (h : AppliesAt env attempts st i s p features t) (hstart : UnchangedStart st)
    (hheader : configSetHashValue (attempts i).header = some hash) :
    (processRuntimeFeatureControlReq env attempts st).state.proc.isRebootRequired = false ↔
      Spared env features (applyStart env (attempts i) s p features) hash := by
  have hkept := keptHash_of_part h.part
  have hlow : (applyStart env (attempts i) s p features).proc.isRebootRequired = false :=
    ((h.makes.lowered hstart).preProcessed h.pre).reboot
  have hraised := (configDataPart_reports env features
    (applyStart env (attempts i) s p features)).2
  rw [h.part, Exec.state_ok, hlow] at hraised
  rw [(h.run_eq hstart.toFresh).2, Exec.state_ok, storeOutcome_reboot hheader, appliedState_proc]
  have hspared : Spared env features (applyStart env (attempts i) s p features) hash ↔
      t.proc.isRebootRequired = false ∨ stringCaseCompare t.proc.bkupHash hash = true := by
    refine or_congr ?_ ?_
    · rw [← Bool.not_eq_true, hraised, or_iff_right Bool.false_ne_true, not_and, not_exists]
    · constructor
      · rintro ⟨kept, hkept', hsame⟩
        obtain rfl := hkept'.unique hkept
        exact hsame
      · intro hsame
        exact ⟨t.proc.bkupHash, hkept, hsame⟩
  rw [hspared]
  split
  next hsame => exact iff_of_true rfl (Or.inr hsame)
  next hdiffers => rw [or_iff_left hdiffers]

/-- **When a run with an unchanged hash asks for no reboot.** -/
theorem noReboot_iff (env : Env) (attempts : Nat → Attempt) {st : St} (hstart : UnchangedStart st) :
    NoReboot env attempts st ↔ ∀ i s p features t hash,
      AppliesAt env attempts st i s p features t →
      configSetHashValue (attempts i).header = some hash →
      stringCaseCompare (storedHash env s) hash = true →
      Spared env features (applyStart env (attempts i) s p features) hash := by
  constructor
  · intro h i s p features t hash happlies hheader hstored
    exact (happlies.reboot_iff hstart hheader).mp (h i s p features t hash happlies hheader hstored)
  · intro h i s p features t hash happlies hheader hstored
    exact (happlies.reboot_iff hstart hheader).mpr (h i s p features t hash happlies hheader hstored)

/-- A device with maintenance. -/
def maintained : Env := { Env.plain with deviceProperties := none }

theorem unchangedStart_hashed : UnchangedStart .hashed := ⟨fresh_hashed, rfl, rfl⟩

/-- The hash `h1` was read for the request and nothing replaces it. -/
theorem noReboot_iff_alone : NoReboot maintained (fun _ => hashedAttempt alone) .hashed := by
  apply (noReboot_iff maintained (fun _ => hashedAttempt alone) unchangedStart_hashed).mpr
  intro i s p features t hash happlies hheader _
  obtain ⟨hbreak, hread, hone⟩ : (requestPass maintained (fun _ => hashedAttempt alone) 0
        (St.hashed.onProc chooseSelectOpt)).value? = some (some .success) ∧
      stringCaseCompare (received maintained (hashedAttempt alone)
        (St.hashed.onProc chooseSelectOpt)).proc.bkupHash "H1".toList = true ∧
      configSetHashValue (hashedAttempt alone).header = some "H1".toList := by
    decide +kernel
  have hlist := toList_mapOf_alone
  obtain ⟨rfl, rfl⟩ := happlies.makes.passes.eq_of_break hbreak
  obtain rfl : alone = features :=
    Option.some.inj ((features_responseBody alone).symm.trans happlies.body)
  obtain rfl : "H1".toList = hash :=
    Option.some.inj (hone.symm.trans hheader)
  refine Or.inr ⟨_, Or.inr ⟨rfl, ?_⟩, ?_⟩
  · rintro value vars s ⟨map, earlier, later, hsome, hmem, -⟩
    rw [happlies.map_eq unchangedStart_hashed.toFresh, mapOf_eq (by decide)] at hsome
    obtain rfl : mapOf alone = map := Option.some.inj hsome
    rw [hlist] at hmem
    have hkey : bootstrapXconfUrlKeyStr ∈ ["Device.X.B".toList] := by
      have hpair : (bootstrapXconfUrlKeyStr, value) ∈ [("Device.X.B".toList, "1".toList)] :=
        hmem ▸ List.mem_append_right _ List.mem_cons_self
      exact List.mem_singleton.mpr (Prod.mk.inj (List.mem_singleton.mp hpair)).1
    exact absurd (List.mem_singleton.mp hkey) (toList_ne (by simp))
  · change stringCaseCompare p.bkupHash "H1".toList = true
    rw [(preProcess_reboot happlies.pre).2]
    exact hread

/-- With a new bootstrap URL beside the parameter, the hash is read again, after the store was cleared. -/
def withBootstrapUrl : List Json :=
  [.object (plainFeature "F".toList
    [("Device.X.B".toList, .string "1".toList),
      (bootstrapXconfUrlKeyStr, .string "https://boot".toList)])]

theorem not_noReboot : ¬ NoReboot maintained (fun _ => hashedAttempt withBootstrapUrl) .hashed := by
  intro h
  obtain ⟨hbreak, hraised, hheader, hstored⟩ :
      (requestPass maintained (fun _ => hashedAttempt withBootstrapUrl) 0
        (St.hashed.onProc chooseSelectOpt)).value? = some (some .success) ∧
      (requestPass maintained (fun _ => hashedAttempt withBootstrapUrl) 0
        (St.hashed.onProc chooseSelectOpt)).state.proc.isRebootRequired = true ∧
      configSetHashValue (hashedAttempt withBootstrapUrl).header = some "H1".toList ∧
      stringCaseCompare (storedHash maintained (St.hashed.onProc chooseSelectOpt))
        "H1".toList = true := by
    decide +kernel
  obtain ⟨p, features, t, happlies⟩ := (makesPass_hashed rfl withBootstrapUrl).appliesAt
    fresh_hashed.flag (answered_hashedAttempt withBootstrapUrl) hbreak
  have hlow := h 0 _ p features t "H1".toList happlies hheader hstored
  rw [happlies.run_state unchangedStart_hashed.toFresh, hraised] at hlow
  cases hlow

end RfcMgr
