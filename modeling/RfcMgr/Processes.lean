import RfcMgr.LockFile
import RfcMgr.Turns
import RfcMgr.Lifetime

/-! Any number of `rfcMgr` processes on one device (STB build), interleaved at every call on the lock and
at every write to the device. As far as the lock file keeps them apart, the device is what their runs leave
on it one after the other. -/

namespace RfcMgr.Processes

open Lock GuardedRuns Turns

structure System where
  lock : LockState
  /-- The device, the runs in progress on it and those that have ended. -/
  runs : Turns.State Pid Device

inductive Act where
  | lock (a : Lock.Act)
  /-- `RFCManagerProcess` makes its processor. -/
  | begin (p : Pid)
  | write (p : Pid) (dev : Device)
  /-- The run returns; `spoilt` is the device of one that others have written beside. -/
  | finish (p : Pid) (spoilt : Device)
  /-- The process is gone without its exit handlers: a crash, or a signal it does not handle. -/
  | die (p : Pid)

/-- What a run that nobody disturbs leaves on the device; a run that crashes does not return. -/
def job (launches : Pid → Boot) (p : Pid) (dev : Device) : Option Device :=
  ((launches p).run dev).value?.map fun _ => ((launches p).run dev).state.dev

/-- What a process has open on the lock file. -/
def openFd : Phase → Option Inode
  | .opened i => some i
  | .owner fd | .exiting fd _ => fd
  | .idle | .started | .rejected | .exited => none

/-- The run of a process that leaves it is cut off. -/
def leave (runs : Turns.State Pid Device) (p : Pid) : Turns.State Pid Device :=
  match runs.work p with
  | none => runs
  | some _ => runs.endWork p .cut

/-- `exit` in the middle of a run is that of a signal handler. -/
def onLock (runs : Turns.State Pid Device) : Lock.Act → Turns.State Pid Device
  | .callExit p => leave runs p
  | _ => runs

section

variable (launches : Pid → Boot)

/-- A process makes one run at most, behind the check. -/
def step (s : System) : Act → Option System
  | .lock a => (Lock.step s.lock a).map fun lock => ⟨lock, onLock s.runs a⟩
  | .begin p =>
      match s.lock.phase p with
      | .owner _ =>
          if p ∈ s.runs.ended.map Prod.fst then none
          else (Turns.step (job launches) s.runs (.begin p)).map fun runs => ⟨s.lock, runs⟩
      | _ => none
  | .write p dev => (Turns.step (job launches) s.runs (.write p dev)).map fun runs => ⟨s.lock, runs⟩
  | .finish p spoilt =>
      (Turns.step (job launches) s.runs (.finish p spoilt)).map fun runs => ⟨s.lock, runs⟩
  | .die p =>
      if s.lock.phase p = .idle ∨ s.lock.phase p = .exited then none
      else some ⟨(s.lock.closeFd p (openFd (s.lock.phase p))).setPhase p .exited, leave s.runs p⟩

end

/-- Nobody has started since the boot. -/
structure Initial (s : System) : Prop where
  lock : Lock.Initial s.lock
  idle : ∀ p, s.runs.work p = none
  ended : s.runs.ended = []

/-- The condition under which the lock file excludes. -/
def Undisturbed (s : System) : Act → Prop
  | .lock a => Lock.Undisturbed s.lock a
  | _ => True

/-- The starts of the runs that have ended, in order. -/
def boots (launches : Pid → Boot) (ended : List (Pid × Ending)) : List Boot :=
  ended.map fun e => launches e.1

/-! ### The lock while a run is in progress -/

/-- Behind the check, a process leaves it by its exit only. -/
theorem pastCheck_step {l l' : LockState} {a : Lock.Act} (hstep : Lock.step l a = some l') {p : Pid}
    (hp : PastCheck l p) (ha : a ≠ .callExit p) : PastCheck l' p := by
  obtain ⟨fd, hp⟩ := hp
  have hmove : ∀ {l₁ : LockState} {q : Pid} {ph : Phase}, l₁.phase = l.phase → q ≠ p →
      PastCheck (l₁.setPhase q ph) p := by
    intro l₁ q ph hsame hq
    refine ⟨fd, ?_⟩
    rw [setPhase_phase_of_ne _ _ _ _ (Ne.symm hq), hsame]
    exact hp
  have hother : ∀ {q : Pid} {ph : Phase}, l.phase q = ph → ph ≠ .owner fd → q ≠ p := by
    intro q ph hq hph heq
    rw [heq, hp] at hq
    exact hph hq.symm
  rcases step_cases hstep with ⟨q, rfl, hq, rfl⟩ | ⟨q, rfl, hq, rfl⟩ | ⟨q, rfl, hq, rfl⟩ |
    ⟨q, i, rfl, hq, -, rfl⟩ | ⟨q, i, rfl, hq, -, rfl⟩ | ⟨q, fd', rfl, -, rfl⟩ |
    ⟨q, fd', b, rfl, hq, rfl⟩ | ⟨q, fd', rfl, hq, rfl⟩
  · exact hmove rfl (hother hq (by simp))
  · exact hmove (openCreat_phase l) (hother hq (by simp))
  · exact hmove rfl (hother hq (by simp))
  · exact hmove rfl (hother hq (by simp))
  · exact hmove rfl (hother hq (by simp))
  · exact hmove rfl fun heq => ha (by rw [heq])
  · exact hmove rfl (hother hq (by simp))
  · exact hmove rfl (hother hq (by simp))

/-- A process that dies takes its own lock with it, and nobody else's. -/
theorem exclusive_die {l : LockState} (h : Exclusive l) (p : Pid) (fd : Option Inode) :
    Exclusive ((l.closeFd p fd).setPhase p .exited) := by
  have hleft : Exclusive (l.setPhase p .exited) :=
    h.setPhase (fun i => by simp) (fun fd => by simp)
  refine ⟨hleft.opened, ?_⟩
  intro q fd' hq
  obtain ⟨i, hfd, hpath, hlock⟩ := hleft.owner q fd' hq
  refine ⟨i, hfd, hpath, ?_⟩
  have hqp : q ≠ p := by
    rintro rfl
    rw [setPhase_phase_self] at hq
    cases hq
  have hheld : l.lockedBy i = some q := hlock
  show (if fd = some i ∧ l.lockedBy i = some p then none else l.lockedBy i) = some q
  rw [hheld, if_neg]
  rintro ⟨-, heq⟩
  exact hqp (Option.some.inj heq)

/-! ### One step -/

/-- The lock keeps apart those that are at work. -/
structure Orderly (launches : Pid → Boot) (dev : Device) (s : System) : Prop where
  exclusive : Exclusive s.lock
  owner : ∀ p, s.runs.work p ≠ none → PastCheck s.lock p
  isolated : Isolated (job launches) dev s.runs
  once : (s.runs.ended.map Prod.fst).Nodup
  pending : ∀ p, s.runs.work p ≠ none → p ∉ s.runs.ended.map Prod.fst

section Orderly

variable {launches : Pid → Boot} {dev : Device} {s s' : System}

theorem Initial.orderly (h : Initial s) : Orderly launches s.runs.value s where
  exclusive := h.lock.exclusive
  owner p hp := absurd (h.idle p) hp
  isolated := by
    refine ⟨fun i _ hi => absurd (h.idle i) hi, fun i w hw => ?_, fun i w hw => ?_, fun _ => ?_⟩
    · cases (h.idle i).symm.trans hw
    · cases (h.idle i).symm.trans hw
    · rw [h.ended]
      exact .nil
  once := by
    rw [h.ended]
    exact List.nodup_nil
  pending p hp := absurd (h.idle p) hp

/-- A process that has ended its run is one more that has. -/
theorem Orderly.ended_endWork (h : Orderly launches dev s) {p : Pid} (hp : s.runs.work p ≠ none)
    (ending : Ending) : ((s.runs.ended ++ [(p, ending)]).map Prod.fst).Nodup := by
  rw [List.map_append, List.nodup_append]
  refine ⟨h.once, List.nodup_singleton p, ?_⟩
  intro q hq q' hq' heq
  obtain rfl : q' = p := List.mem_singleton.mp hq'
  apply h.pending q' hp
  rwa [← heq]

theorem Orderly.endWork (h : Orderly launches dev s) {p : Pid} (hp : s.runs.work p ≠ none)
    {lock : LockState} (hlock : Exclusive lock) {runs : Turns.State Pid Device} {ending : Ending}
    (hended : runs.ended = s.runs.ended ++ [(p, ending)]) (hwork : ∀ q, runs.work q = none)
    (hisolated : Isolated (job launches) dev runs) : Orderly launches dev ⟨lock, runs⟩ where
  exclusive := hlock
  owner q hq := absurd (hwork q) hq
  isolated := hisolated
  once := by
    rw [hended]
    exact h.ended_endWork hp ending
  pending q hq := absurd (hwork q) hq

theorem Orderly.work_none (h : Orderly launches dev s) {p q : Pid} (hp : s.runs.work p ≠ none)
    (hq : q ≠ p) : s.runs.work q = none := by
  obtain ⟨w, hw⟩ := Option.ne_none_iff_exists'.mp hp
  exact h.isolated.others hw hq

theorem Orderly.leave (h : Orderly launches dev s) {p : Pid} {lock : LockState}
    (hlock : Exclusive lock) (howner : ∀ q, q ≠ p → PastCheck s.lock q → PastCheck lock q) :
    Orderly launches dev ⟨lock, leave s.runs p⟩ := by
  unfold Processes.leave
  split
  next hp =>
    refine { h with
      exclusive := hlock
      owner := fun q hq => howner q ?_ (h.owner q hq) }
    rintro rfl
    exact hq hp
  next w hp =>
    have hsome : s.runs.work p ≠ none := hp ▸ Option.some_ne_none w
    refine h.endWork hsome hlock rfl ?_ ?_
    · intro q
      by_cases hq : q = p
      · rw [hq, endWork_work_self]
      · rw [endWork_work_of_ne _ _ _ _ hq]
        exact h.work_none hsome hq
    · exact h.isolated.endWork hp (.cut (h.isolated.start p w hp) s.runs.value)

theorem Orderly.lock (h : Orderly launches dev s) {a : Lock.Act} {lock : LockState}
    (hstep : Lock.step s.lock a = some lock) (hguard : Lock.Undisturbed s.lock a) :
    Orderly launches dev ⟨lock, onLock s.runs a⟩ := by
  have hlock : Exclusive lock := h.exclusive.step hguard hstep
  by_cases hexit : ∃ p, a = .callExit p
  · obtain ⟨p, rfl⟩ := hexit
    refine h.leave hlock fun q hq hpast => pastCheck_step hstep hpast ?_
    rintro heq
    exact hq (Lock.Act.callExit.inj heq).symm
  · have hruns : onLock s.runs a = s.runs := by
      cases a with
      | callExit p => exact absurd ⟨p, rfl⟩ hexit
      | start | openLock | openFails | flock | cleanup | terminate => rfl
    rw [hruns]
    exact { h with
      exclusive := hlock
      owner := fun p hp => pastCheck_step hstep (h.owner p hp) fun heq => hexit ⟨p, heq⟩ }

/-- A process behind the check finds nobody at work but itself. -/
theorem Orderly.oneByOne (h : Orderly launches dev s) {p : Pid} (hp : PastCheck s.lock p) :
    ∀ q, q ≠ p → s.runs.work q = none := by
  intro q hq
  by_contra hwork
  exact hq (h.exclusive.pastCheck_unique (h.owner q hwork) hp)

theorem Orderly.step {a : Act} (h : Orderly launches dev s) (hguard : Undisturbed s a)
    (hstep : step launches s a = some s') : Orderly launches dev s' := by
  cases a with
  | lock a =>
      obtain ⟨lock, hlock, rfl⟩ := Option.map_eq_some_iff.mp hstep
      exact h.lock hlock hguard
  | begin p =>
      simp only [Processes.step] at hstep
      split at hstep
      case h_2 => cases hstep
      case h_1 fd hp =>
        split at hstep
        next => cases hstep
        next hnew =>
          obtain ⟨runs, hruns, rfl⟩ := Option.map_eq_some_iff.mp hstep
          have hpast : PastCheck s.lock p := ⟨fd, hp⟩
          have hisolated : Isolated (job launches) dev runs :=
            h.isolated.step (a := .begin p) (h.oneByOne hpast) hruns
          cases stepOf_of_step hruns with
          | begin _ hidle =>
              have honly : ∀ q,
                  (s.runs.setWork p (some ⟨s.runs.value, true⟩)).work q ≠ none → q = p := by
                intro q hq
                by_contra hne
                rw [setWork_work_of_ne _ _ _ _ hne] at hq
                exact hq (h.oneByOne hpast q hne)
              refine ⟨h.exclusive, fun q hq => ?_, hisolated, h.once, fun q hq => ?_⟩
              · rw [honly q hq]
                exact hpast
              · rw [honly q hq]
                exact hnew
  | write p dev' =>
      obtain ⟨runs, hruns, rfl⟩ := Option.map_eq_some_iff.mp hstep
      have hisolated : Isolated (job launches) dev runs := h.isolated.step (a := .write p dev') trivial hruns
      cases stepOf_of_step hruns with
      | write _ _ w hp =>
          have hwork : ∀ q, (s.runs.write p dev').work q ≠ none → s.runs.work q ≠ none := by
            intro q hq
            by_cases hqp : q = p
            · rw [hqp, hp]
              exact Option.some_ne_none w
            · exact fun hnone => hq ((write_work_eq_none ..).mpr hnone)
          exact ⟨h.exclusive, fun q hq => h.owner q (hwork q hq), hisolated, h.once,
            fun q hq => h.pending q (hwork q hq)⟩
  | finish p spoilt =>
      obtain ⟨runs, hruns, rfl⟩ := Option.map_eq_some_iff.mp hstep
      have hisolated : Isolated (job launches) dev runs :=
        h.isolated.step (a := .finish p spoilt) trivial hruns
      cases stepOf_of_step hruns with
      | finish _ _ value w hp hvalue =>
          have hsome : s.runs.work p ≠ none := hp ▸ Option.some_ne_none w
          refine h.endWork hsome h.exclusive rfl ?_ hisolated
          intro q
          by_cases hq : q = p
          · rw [hq, endWork_work_self]
          · rw [endWork_work_of_ne _ _ _ _ hq, write_work_eq_none]
            exact h.work_none hsome hq
  | die p =>
      simp only [Processes.step] at hstep
      split at hstep
      next => cases hstep
      next =>
        obtain rfl := Option.some.inj hstep
        refine h.leave (exclusive_die h.exclusive p _) fun q hq hpast => ?_
        obtain ⟨fd, hfd⟩ := hpast
        exact ⟨fd, (setPhase_phase_of_ne _ _ _ _ hq).trans hfd⟩

end Orderly

/-! ### One run after the other -/

/-- Runs that have all got to their end are starts of one lifetime. -/
theorem after_of_serial {launches : Pid → Boot} {dev dev' : Device} {ended : List (Pid × Ending)}
    (h : Serial (job launches) dev ended dev') (hwhole : ∀ e ∈ ended, e.2 = .completed) :
    Lifetime.Returns (boots launches ended) dev ∧ Lifetime.after (boots launches ended) dev = dev' := by
  induction h with
  | nil => exact ⟨trivial, rfl⟩
  | @completed ended value _ p _ hjob ih =>
      obtain ⟨hreturns, hafter⟩ := ih fun e he => hwhole e (List.mem_append_left _ he)
      obtain ⟨rc, hrc, hdev⟩ := Option.map_eq_some_iff.mp hjob
      have hboots : boots launches (ended ++ [(p, .completed)]) = boots launches ended ++ [launches p] :=
        List.map_append
      rw [hboots, Lifetime.returns_snoc, Lifetime.after_snoc, hafter]
      exact ⟨⟨hreturns, Exec.returned_of_isSome (Option.isSome_of_eq_some hrc)⟩, hdev⟩
  | cut _ value' _ =>
      have hlast := hwhole _ (List.mem_append_right _ (List.mem_singleton_self _))
      cases hlast

/-- What the processes have made of a device: their runs might as well have taken turns. -/
structure TookTurns (launches : Pid → Boot) (dev : Device) (t : System) : Prop where
  /-- No process has run twice. -/
  once : (t.runs.ended.map Prod.fst).Nodup
  alone : ∀ p q, t.runs.work p ≠ none → t.runs.work q ≠ none → p = q
  /-- A run in progress is that of the owner of the lock, and has found what the others have left. -/
  owner : ∀ p w, t.runs.work p = some w →
    PastCheck t.lock p ∧ Serial (job launches) dev t.runs.ended w.start
  idle : (∀ p, t.runs.work p = none) → Serial (job launches) dev t.runs.ended t.runs.value
  /-- When no run has been cut off, the runs are a lifetime of the device. -/
  lifetime : (∀ e ∈ t.runs.ended, e.2 = .completed) →
    Lifetime.Returns (boots launches t.runs.ended) dev ∧
    (∀ p w, t.runs.work p = some w → w.start = Lifetime.after (boots launches t.runs.ended) dev) ∧
    ((∀ p, t.runs.work p = none) → t.runs.value = Lifetime.after (boots launches t.runs.ended) dev)

theorem Orderly.tookTurns {launches : Pid → Boot} {dev : Device} {t : System}
    (h : Orderly launches dev t) : TookTurns launches dev t where
  once := h.once
  alone := h.isolated.unique
  owner p w hw := ⟨h.owner p (hw ▸ Option.some_ne_none w), h.isolated.start p w hw⟩
  idle := h.isolated.value
  lifetime hwhole := by
    have hafter : ∀ {dev'}, Serial (job launches) dev t.runs.ended dev' →
        dev' = Lifetime.after (boots launches t.runs.ended) dev :=
      fun hserial => (after_of_serial hserial hwhole).2.symm
    refine ⟨?_, fun p w hw => hafter (h.isolated.start p w hw),
      fun hidle => hafter (h.isolated.value hidle)⟩
    by_cases hidle : ∀ p, t.runs.work p = none
    · exact (after_of_serial (h.isolated.value hidle) hwhole).1
    · obtain ⟨p, hp⟩ := not_forall.mp hidle
      obtain ⟨w, hw⟩ := Option.ne_none_iff_exists'.mp hp
      exact (after_of_serial (h.isolated.start p w hw) hwhole).1

/-- **Runs take turns, as far as the lock file gives it.** In every interleaving of any number of
processes in which nobody unlinks the lock file under another that uses it, with runs cut off at any point
by signals and crashes, a run finds on the device what the runs before it have left, and no run is lost or
made twice. -/
theorem tookTurns_of_undisturbed {launches : Pid → Boot} {s t : System} {as : List Act}
    (hinit : Initial s) (hguard : Guarded (step launches) Undisturbed s as)
    (hrun : run (step launches) s as = some t) : TookTurns launches s.runs.value t := by
  apply Orderly.tookTurns
  apply inv_of_guarded ?_ hinit.orderly hguard hrun
  intro u a u' h hg hs
  exact h.step hg hs

/-- A device after boot, on which nobody has started. -/
def System.booted : System := ⟨Lock.booted, ⟨.blank, fun _ => none, []⟩⟩

/-- Process 0 applies a response; the server of process 1 does not answer. -/
def inOrder (p : Pid) : Boot := if p = 0 then Lifetime.plainBoot else Lifetime.silentBoot

/-- One launch, from its start to its end. -/
def wholeLaunch (p : Pid) : List Act :=
  [.lock (.start p), .lock (.openLock p), .lock (.flock p), .begin p, .finish p .blank,
    .lock (.callExit p), .lock (.cleanup p), .lock (.terminate p)]

/-- The run of a process behind the check, alone on the device. -/
theorem step_finish {launches : Pid → Boot} {s : System} {p : Pid} {spoilt dev dev' : Device}
    (hp : s.runs.work p = some ⟨dev, true⟩) (hjob : job launches p dev = some dev') :
    step launches s (.finish p spoilt) = some ⟨s.lock, (s.runs.write p dev').endWork p .completed⟩ := by
  simp only [step, Turns.step, hp, if_true, hjob, Option.map_some]

theorem job_of_isSome {launches : Pid → Boot} {p : Pid} {dev : Device}
    (h : ((launches p).run dev).value?.isSome = true) :
    job launches p dev = some ((launches p).run dev).state.dev := by
  obtain ⟨rc, hrc⟩ := Option.isSome_iff_exists.mp h
  rw [job, hrc, Option.map_some]

theorem tookTurns_wholeLaunches :
    ∃ t, run (step inOrder) .booted (wholeLaunch 0 ++ wholeLaunch 1) = some t ∧
      TookTurns inOrder .blank t ∧
      t.runs.value = Lifetime.after [Lifetime.plainBoot, Lifetime.silentBoot] .blank := by
  have hfirst : job inOrder 0 .blank = some ((inOrder 0).run .blank).state.dev :=
    job_of_isSome (by decide +kernel)
  have hsecond : job inOrder 1 ((inOrder 0).run .blank).state.dev = some
      ((inOrder 1).run ((inOrder 0).run .blank).state.dev).state.dev :=
    job_of_isSome (by decide +kernel)
  have hafter : Lifetime.after [Lifetime.plainBoot, Lifetime.silentBoot] .blank =
      ((inOrder 1).run ((inOrder 0).run .blank).state.dev).state.dev := rfl
  rw [hafter]
  generalize ((inOrder 0).run .blank).state.dev = dev at hfirst hsecond ⊢
  generalize ((inOrder 1).run dev).state.dev = dev' at hsecond ⊢
  have hrun : ∃ t, (run (step inOrder) .booted (wholeLaunch 0 ++ wholeLaunch 1) = some t ∧
      Guarded (step inOrder) Undisturbed .booted (wholeLaunch 0 ++ wholeLaunch 1)) ∧
      t.runs.value = dev' := by
    refine ⟨_, run_guarded_cons rfl trivial (run_guarded_cons rfl trivial (run_guarded_cons rfl trivial
      (run_guarded_cons rfl trivial (run_guarded_cons (step_finish rfl hfirst) trivial
        (run_guarded_cons rfl trivial (run_guarded_cons rfl ?_ (run_guarded_cons rfl trivial
          (run_guarded_cons rfl trivial (run_guarded_cons rfl trivial (run_guarded_cons rfl trivial
            (run_guarded_cons rfl trivial (run_guarded_cons (step_finish rfl hsecond) trivial
              (run_guarded_cons rfl trivial (run_guarded_cons rfl ?_ (run_guarded_cons rfl trivial
                ⟨rfl, guarded_nil _⟩))))))))))))))), rfl⟩
    · intro q hq i _
      simp [System.booted, Lock.booted, LockState.setPhase, LockState.openCreat, LockState.lock,
        Function.update_of_ne hq]
    · intro q hq i _
      by_cases hzero : q = 0
      · subst hzero
        simp [System.booted, Lock.booted, LockState.setPhase, LockState.openCreat, LockState.lock,
          LockState.closeFd, LockState.cleanupLockFile]
      · simp [System.booted, Lock.booted, LockState.setPhase, LockState.openCreat, LockState.lock,
          LockState.closeFd, LockState.cleanupLockFile, Function.update_of_ne hq,
          Function.update_of_ne hzero]
  obtain ⟨t, ⟨hrun, hguard⟩, hvalue⟩ := hrun
  have hinit : Initial .booted := ⟨booted_initial, fun _ => rfl, rfl⟩
  exact ⟨t, hrun, tookTurns_of_undisturbed hinit hguard hrun, hvalue⟩

end RfcMgr.Processes
