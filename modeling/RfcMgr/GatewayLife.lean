import RfcMgr.Crontab
import RfcMgr.GatewayRuns

/-! The life of a gateway (RDKB build): launches of `rfcMgr` from `main` to their exits, crontabs that other
programs install, and reboots. A launch renews its entry in the crontab behind its run, whatever has come
of that. -/

namespace RfcMgr.GatewayLife

open KeyValueLines (cStr)
open DeviceOnline (DeviceStatus fgets)
open Crontab (Schedule Shows scheduleAfter)

/-! ### What is asked of the gateway -/

/-- The first line of what a command prints, without its end; `none` is a pipe that does not open. -/
def firstOutput (output : Option Str) : Str :=
  let result := cStr (fgets 128 (output.getD []))
  if result.getLast? = some '\n' then result.dropLast else result

def getSyseventValue (output : Option Str) : Str := firstOutput output

/-- The address of version 4 is asked for without one of version 6. -/
def getErouterIPAddress (wanIPv6 wanIP : Option Str) : Str :=
  if firstOutput wanIPv6 = [] then firstOutput wanIP else firstOutput wanIPv6

def checkIPConnectivity (wanIPv6 wanIP : Option Str) : Bool :=
  decide (getErouterIPAddress wanIPv6 wanIP ≠ [])

def checkDeviceIsOnline (wanIPv6 wanIP : Option Str) : DeviceStatus :=
  if checkIPConnectivity wanIPv6 wanIP then .online else .offline

def completed : Str := "Completed".toList

section Wait

-- what the `i`-th query of `rfc_blob_processing` prints
variable (query : Nat → Option Str)

/-- The sleeps of the loop, with some left and the next query. The turn behind the last sleep breaks off
whatever its query says. -/
def blobSleeps : Nat → Nat → Nat
  | 0, _ => 0
  | left + 1, i =>
      if getSyseventValue (query i) = completed then 0 else blobSleeps left (i + 1) + 1

/-- The sleeps of 100 seconds before the manager starts. -/
def waitForRfcCompletion (agentInitialized : Bool) : Nat :=
  let rfcBlobProcessing := getSyseventValue (query 0)
  if rfcBlobProcessing ≠ [] ∧ rfcBlobProcessing ≠ completed ∧ agentInitialized = true then
    blobSleeps query 6 1
  else 0

end Wait

/-! ### A launch -/

structure Launch extends Gateway.Boot where
  directoryReady : Bool
  /-- What the queries of `rfc_blob_processing` print, and the file of the agent. -/
  blobProcessing : Nat → Option Str
  agentInitialized : Bool
  /-- Another instance holds the lock file. -/
  locked : Bool
  /-- What `dmcli` prints of the two addresses. -/
  wanIPv6 : Option Str
  wanIP : Option Str
  dcm : Option Str
  tools : Crontab.Tools

structure Device where
  gateway : Gateway.Device
  crontab : Crontab.State

/-- No exit status is a crash. -/
structure Report where
  exit : Option Nat
  sleeps : Nat

/-- The status is not set on this build, whatever the run returns; no value is a crash. -/
def rfcManagerProcess (l : Launch) (d : Gateway.Device) : Option ReturnCode × Gateway.Device :=
  ((l.run d.files).value?.map fun _ => .failure, Gateway.step d (.start l.toBoot))

/-- `main` behind the fork. -/
def launch (l : Launch) (d : Device) : Report × Device :=
  if l.directoryReady = false then (⟨some 1, 0⟩, d)
  else
    let sleeps := waitForRfcCompletion l.blobProcessing l.agentInitialized
    if l.locked then (⟨some 1, sleeps⟩, d)
    else
      match checkDeviceIsOnline l.wanIPv6 l.wanIP with
      | .offline => (⟨some 0, sleeps⟩, d)
      | .online =>
          match rfcManagerProcess l d.gateway with
          | (none, gateway) => (⟨none, sleeps⟩, ⟨gateway, d.crontab⟩)
          | (some _, gateway) =>
              (⟨some 0, sleeps⟩, ⟨gateway, (Crontab.Step.launch l.dcm l.tools).run d.crontab⟩)

/-! ### A life -/

inductive Happening where
  | launch (l : Launch)
  /-- Another program installs a crontab. -/
  | edit (text : Str)
  /-- The files under `/tmp` are gone, the crontab is not. -/
  | reboot

def step (d : Device) : Happening → Device
  | .launch l => (GatewayLife.launch l d).2
  | .edit text => { d with crontab := (Crontab.Step.edit text).run d.crontab }
  | .reboot => { d with gateway := Gateway.step d.gateway .reboot }

def after (life : List Happening) (d : Device) : Device := life.foldl step d

/-- The launch comes to a run of the manager. -/
def Launch.Reaches (l : Launch) : Prop :=
  l.directoryReady = true ∧ l.locked = false ∧ checkDeviceIsOnline l.wanIPv6 l.wanIP = .online

instance (l : Launch) : Decidable l.Reaches := inferInstanceAs (Decidable (_ ∧ _ ∧ _))

/-- And the run returns. -/
def Launch.Configures (l : Launch) (d : Device) : Prop :=
  l.Reaches ∧ (l.run d.gateway.files).value?.isSome = true

instance (l : Launch) (d : Device) : Decidable (l.Configures d) := inferInstanceAs (Decidable (_ ∧ _))

namespace Happening

def starts : Happening → List Gateway.Happening
  | .launch l => if l.Reaches then [.start l.toBoot] else []
  | .edit _ => []
  | .reboot => [.reboot]

def crontab (d : Device) : Happening → List Crontab.Step
  | .launch l => if l.Configures d then [.launch l.dcm l.tools] else []
  | .edit text => [.edit text]
  | .reboot => []

/-- Every launch has working tools, and every other program installs complete lines. -/
def Orderly : Happening → Prop
  | .launch l => l.tools.Works
  | .edit text => Crontab.Orderly (.edit text)
  | .reboot => True

end Happening

/-- The runs of the manager. -/
def starts (life : List Happening) : List Gateway.Happening := life.flatMap Happening.starts

/-- What becomes of the crontab, by the runs that return. -/
def agenda : List Happening → Device → List Crontab.Step
  | [], _ => []
  | what :: life, d => what.crontab d ++ agenda life (step d what)

/-! ### The wait -/

/-- How often the manager sleeps: until the first query that says so, or six times. -/
structure Waited (query : Nat → Option Str) (agentInitialized : Bool) (sleeps : Nat) : Prop where
  bounded : sleeps ≤ 6
  unfinished : ∀ k < sleeps, getSyseventValue (query (k + 1)) ≠ completed
  needed : 0 < sleeps → getSyseventValue (query 0) ≠ [] ∧ getSyseventValue (query 0) ≠ completed ∧
    agentInitialized = true
  finished : sleeps < 6 → getSyseventValue (query 0) = [] ∨ getSyseventValue (query 0) = completed ∨
    agentInitialized = false ∨ getSyseventValue (query (sleeps + 1)) = completed

theorem blobSleeps_spec (query : Nat → Option Str) (left i : Nat) :
    blobSleeps query left i ≤ left ∧
    (∀ k < blobSleeps query left i, getSyseventValue (query (i + k)) ≠ completed) ∧
    (blobSleeps query left i < left →
      getSyseventValue (query (i + blobSleeps query left i)) = completed) := by
  induction left generalizing i with
  | zero =>
      refine ⟨le_rfl, ?_, ?_⟩
      · intro k hk
        exact absurd hk (Nat.not_lt_zero k)
      · intro h
        exact absurd h (Nat.lt_irrefl 0)
  | succ left ih =>
      rw [blobSleeps]
      split
      next hdone =>
        refine ⟨Nat.zero_le _, ?_, fun _ => hdone⟩
        intro k hk
        exact absurd hk (Nat.not_lt_zero k)
      next hwait =>
        obtain ⟨hbound, hbefore, hend⟩ := ih (i + 1)
        refine ⟨by omega, ?_, ?_⟩
        · intro k hk
          cases k with
          | zero => exact hwait
          | succ k =>
              have hk' := hbefore k (by omega)
              rwa [Nat.add_right_comm] at hk'
        · intro hless
          have hdone := hend (by omega)
          rwa [Nat.add_right_comm] at hdone

/-- **The wait for the agent** ends, by itself or with the agent. -/
theorem waited (query : Nat → Option Str) (agentInitialized : Bool) :
    Waited query agentInitialized (waitForRfcCompletion query agentInitialized) := by
  obtain ⟨hbound, hbefore, hend⟩ := blobSleeps_spec query 6 1
  simp only [waitForRfcCompletion]
  split
  next hneeded =>
    refine ⟨hbound, ?_, fun _ => hneeded, ?_⟩
    · intro k hk
      rw [Nat.add_comm]
      exact hbefore k hk
    · intro hless
      rw [Nat.add_comm]
      exact Or.inr (Or.inr (Or.inr (hend hless)))
  next hneedless =>
    refine ⟨Nat.zero_le 6, ?_, fun h => absurd h (Nat.lt_irrefl 0), ?_⟩
    · intro k hk
      exact absurd hk (Nat.not_lt_zero k)
    · intro _
      by_contra hnone
      push Not at hnone
      obtain ⟨hany, hunfinished, hagent, -⟩ := hnone
      exact hneedless ⟨hany, hunfinished, Bool.of_not_eq_false hagent⟩

/-! ### The exit -/

/-- What a launch on a device reports. What the run returns is no part of it. -/
structure Launch.Reported (l : Launch) (d : Device) (r : Report) : Prop where
  refused : r.exit = some 1 ↔ l.directoryReady = false ∨ l.locked = true
  crashed : r.exit = none ↔ l.Reaches ∧ (l.run d.gateway.files).value? = none
  done : r.exit = some 0 ↔
    (l.directoryReady = true ∧ l.locked = false) ∧ (l.Reaches → l.Configures d)
  waited : l.directoryReady = true → Waited l.blobProcessing l.agentInitialized r.sleeps

theorem launch_reported (l : Launch) (d : Device) : l.Reported d (launch l d).1 := by
  have hwaited := waited l.blobProcessing l.agentInitialized
  rw [launch]
  split
  next hdirectory =>
    have hnot : ¬ l.Reaches := fun h => absurd (hdirectory.symm.trans h.1) Bool.false_ne_true
    refine ⟨?_, ?_, ?_, ?_⟩ <;> simp [hdirectory, hnot]
  next hdirectory =>
    have hready : l.directoryReady = true := Bool.of_not_eq_false hdirectory
    simp only
    split
    next hlocked =>
      have hnot : ¬ l.Reaches := fun h => absurd (h.2.1.symm.trans hlocked) Bool.false_ne_true
      refine ⟨?_, ?_, ?_, fun _ => hwaited⟩ <;> simp [hready, hlocked, hnot]
    next hlocked =>
      have hfree : l.locked = false := Bool.eq_false_iff.mpr hlocked
      split
      next hoffline =>
        have hnot : ¬ l.Reaches := by
          intro h
          cases hoffline.symm.trans h.2.2
        refine ⟨?_, ?_, ?_, fun _ => hwaited⟩ <;> simp [hready, hfree, hnot]
      next honline =>
        have hreaches : l.Reaches := ⟨hready, hfree, honline⟩
        have hconfigures : l.Configures d ↔ (l.run d.gateway.files).value?.isSome = true :=
          and_iff_right hreaches
        rw [rfcManagerProcess]
        cases hrun : (l.run d.gateway.files).value? with
        | none =>
            refine ⟨?_, ?_, ?_, fun _ => hwaited⟩ <;>
              simp [hready, hfree, hreaches, hconfigures, hrun]
        | some rc =>
            refine ⟨?_, ?_, ?_, fun _ => hwaited⟩ <;>
              simp [hready, hfree, hreaches, hconfigures, hrun]

/-! ### One happening -/

theorem step_eq (d : Device) (what : Happening) :
    step d what = ⟨Gateway.after what.starts d.gateway, Crontab.after (what.crontab d) d.crontab⟩ := by
  cases what with
  | edit text => rfl
  | reboot => rfl
  | launch l =>
      rw [step, launch, Happening.starts, Happening.crontab]
      by_cases hreaches : l.Reaches
      · obtain ⟨hready, hfree, honline⟩ := id hreaches
        have hconfigures : l.Configures d ↔ (l.run d.gateway.files).value?.isSome = true :=
          and_iff_right hreaches
        rw [if_pos hreaches, hready, hfree, honline, rfcManagerProcess]
        simp only [hconfigures]
        cases (l.run d.gateway.files).value? with
        | none => rfl
        | some rc => rfl
      · have hnot : ¬ l.Configures d := fun h => hreaches h.1
        rw [if_neg hreaches, if_neg hnot]
        cases hready : l.directoryReady with
        | false => rfl
        | true =>
            cases hlocked : l.locked with
            | true => rfl
            | false =>
                cases hstatus : checkDeviceIsOnline l.wanIPv6 l.wanIP with
                | offline => rfl
                | online => exact absurd ⟨hready, hlocked, hstatus⟩ hreaches

theorem gateway_step (d : Device) (what : Happening) :
    (step d what).gateway = Gateway.after what.starts d.gateway := congrArg Device.gateway (step_eq d what)

theorem crontab_step (d : Device) (what : Happening) :
    (step d what).crontab = Crontab.after (what.crontab d) d.crontab :=
  congrArg Device.crontab (step_eq d what)

theorem shows_step {d : Device} {a : Schedule} (h : Shows d.crontab a) {what : Happening}
    (horderly : what.Orderly) :
    Shows (step d what).crontab (scheduleAfter (what.crontab d) a) := by
  rw [crontab_step]
  cases what with
  | reboot => exact h
  | edit text => exact h.edit horderly
  | launch l =>
      rw [Happening.crontab]
      split
      · exact h.launch l.dcm horderly
      · exact h

/-! ### The schedule -/

/-- A launch leaves one job where there was one, whatever it can do. -/
theorem jobs_launch {a : Schedule} (h : a.jobs.length = 1) (dcm : Option Str) (t : Crontab.Tools) :
    (a.step (.launch dcm t)).jobs.length = 1 := by
  rw [Schedule.step]
  split
  · exact h
  · rw [Schedule.install]
    split
    · rfl
    · exact h

theorem others_launch (a : Schedule) (dcm : Option Str) {t : Crontab.Tools}
    (hexports : (t.pipe && t.tempFileOut) = true) : (a.step (.launch dcm t)).others = a.others := by
  rw [Schedule.step]
  split
  · rfl
  · rw [Schedule.install, hexports]
    simp only [if_true]
    split
    · rfl
    · rfl

/-- Nobody but the manager installs a crontab. -/
def Undisturbed (life : List Happening) : Prop := ∀ text, .edit text ∉ life

theorem jobs_agenda {life : List Happening} (hundisturbed : Undisturbed life) (d : Device)
    {a : Schedule} (h : a.jobs.length = 1) : (scheduleAfter (agenda life d) a).jobs.length = 1 := by
  induction life generalizing d a with
  | nil => exact h
  | cons what life ih =>
      have hrest : Undisturbed life := fun text hmem => hundisturbed text (List.mem_cons_of_mem _ hmem)
      rw [agenda, scheduleAfter, List.foldl_append]
      apply ih hrest
      cases what with
      | reboot => exact h
      | edit text => exact absurd List.mem_cons_self (hundisturbed text)
      | launch l =>
          rw [Happening.crontab]
          split
          · exact jobs_launch h l.dcm l.tools
          · exact h

theorem others_agenda {life : List Happening} (hundisturbed : Undisturbed life)
    (hexports : ∀ l, .launch l ∈ life → (l.tools.pipe && l.tools.tempFileOut) = true) (d : Device)
    (a : Schedule) : (scheduleAfter (agenda life d) a).others = a.others := by
  induction life generalizing d a with
  | nil => rfl
  | cons what life ih =>
      have hrest : Undisturbed life := fun text hmem => hundisturbed text (List.mem_cons_of_mem _ hmem)
      have hlater := ih hrest (fun l hmem => hexports l (List.mem_cons_of_mem _ hmem)) (step d what)
      rw [agenda, scheduleAfter, List.foldl_append]
      refine (hlater _).trans ?_
      cases what with
      | reboot => rfl
      | edit text => exact absurd List.mem_cons_self (hundisturbed text)
      | launch l =>
          rw [Happening.crontab]
          split
          · exact others_launch a l.dcm (hexports l List.mem_cons_self)
          · rfl

/-! ### A life of a gateway -/

/-- What a life leaves of a gateway. -/
structure Lived (life : List Happening) (d : Device) (a : Schedule) : Prop where
  reported : ∀ earlier l later, life = earlier ++ .launch l :: later →
    l.Reported (after earlier d) (launch l (after earlier d)).1
  /-- The manager has made the runs of the launches that got so far, whatever became of the crontab. -/
  gateway : (after life d).gateway = Gateway.after (starts life) d.gateway
  kept : Gateway.Kept (after life d).gateway
  /-- The crontab has been renewed by those that returned, whatever they returned. -/
  crontab : (after life d).crontab = Crontab.after (agenda life d) d.crontab
  shows : Shows (after life d).crontab (scheduleAfter (agenda life d) a)
  one : Undisturbed life → a.jobs.length = 1 → (scheduleAfter (agenda life d) a).jobs.length = 1
  others : Undisturbed life →
    (∀ l, .launch l ∈ life → (l.tools.pipe && l.tools.tempFileOut) = true) →
    (scheduleAfter (agenda life d) a).others = a.others

theorem gateway_after (life : List Happening) (d : Device) :
    (after life d).gateway = Gateway.after (starts life) d.gateway := by
  induction life generalizing d with
  | nil => rfl
  | cons what life ih =>
      rw [starts, List.flatMap_cons, Gateway.after, List.foldl_append]
      calc (after (what :: life) d).gateway
          = Gateway.after (starts life) (step d what).gateway := ih (step d what)
        _ = Gateway.after (starts life) (Gateway.after what.starts d.gateway) := by rw [gateway_step]

theorem crontab_after (life : List Happening) (d : Device) :
    (after life d).crontab = Crontab.after (agenda life d) d.crontab := by
  induction life generalizing d with
  | nil => rfl
  | cons what life ih =>
      rw [agenda, Crontab.after, List.foldl_append]
      calc (after (what :: life) d).crontab
          = Crontab.after (agenda life (step d what)) (step d what).crontab := ih (step d what)
        _ = Crontab.after (agenda life (step d what)) (Crontab.after (what.crontab d) d.crontab) := by
            rw [crontab_step]

theorem shows_agenda {life : List Happening} (horderly : ∀ what ∈ life, what.Orderly) {d : Device}
    {a : Schedule} (h : Shows d.crontab a) :
    Shows (after life d).crontab (scheduleAfter (agenda life d) a) := by
  induction life generalizing d a with
  | nil => exact h
  | cons what life ih =>
      have hstep := shows_step h (horderly what List.mem_cons_self)
      rw [agenda, scheduleAfter, List.foldl_append]
      exact ih (fun later hlater => horderly later (List.mem_cons_of_mem _ hlater)) hstep

/-- **A life of a gateway.** Whatever its launches meet, and whatever comes of their runs, the hash and the
time are those of the outcomes since the last reboot, and the crontab is that of the launches that have
returned: it keeps one entry of the manager where it had one, and what others have in it. -/
theorem lived_after {life : List Happening} {d : Device} {a : Schedule} (hkept : Gateway.Kept d.gateway)
    (hshows : Shows d.crontab a) (horderly : ∀ what ∈ life, what.Orderly) : Lived life d a where
  reported earlier l _ _ := launch_reported l (after earlier d)
  gateway := gateway_after life d
  kept := by
    rw [gateway_after]
    exact Gateway.kept_after (starts life) hkept
  crontab := crontab_after life d
  shows := shows_agenda horderly hshows
  one hundisturbed := jobs_agenda hundisturbed d
  others hundisturbed hexports := others_agenda hundisturbed hexports d a

/-! A launch behind an agent that does not get done, one beside it, a reboot, and a launch without
settings. -/

def launchOf (boot : Gateway.Boot) (dcm : Option Str) : Launch where
  toBoot := boot
  directoryReady := true
  blobProcessing _ := some "InProgress\n".toList
  agentInitialized := true
  locked := false
  wanIPv6 := some "\n".toList
  wanIP := some "192.0.2.1\n".toList
  dcm := dcm
  tools := Crontab.allWell

def beside : Launch := { launchOf Gateway.unchangedBoot none with locked := true }

def rebooted : List Happening :=
  [.launch (launchOf Gateway.appliedBoot (some (Crontab.unlines [Crontab.settings]))), .launch beside,
    .reboot, .launch (launchOf Gateway.unchangedBoot none)]

def Device.scheduled : Device :=
  ⟨.booted none, some (Crontab.unlines [Crontab.backup, Crontab.jobAt227]), none⟩

theorem lived_after_rebooted :
    Lived rebooted .scheduled ⟨[Crontab.backup], [Crontab.jobAt227], none⟩ ∧
      scheduleAfter (agenda rebooted .scheduled) ⟨[Crontab.backup], [Crontab.jobAt227], none⟩ =
        ⟨[Crontab.backup], [Crontab.jobAt227], some Crontab.settings⟩ := by
  have horderly : ∀ what ∈ rebooted, what.Orderly := by
    simp only [rebooted, List.forall_mem_cons]
    exact ⟨Crontab.allWell_works, Crontab.allWell_works, trivial, Crontab.allWell_works,
      List.forall_mem_nil _⟩
  have hclean : ∀ line ∈ [Crontab.backup, Crontab.jobAt227], Crontab.Clean line := by
    simp only [List.forall_mem_cons]
    exact ⟨⟨by decide, by decide⟩, ⟨by decide, by decide⟩, List.forall_mem_nil _⟩
  constructor
  · exact lived_after (Gateway.kept_booted none) ⟨⟨_, rfl, hclean, by decide, by decide⟩, rfl⟩
      horderly
  · decide +kernel

end RfcMgr.GatewayLife
