import RfcMgr.GuardedRuns
import Mathlib.Logic.Function.Basic

/-! The service lock of `main` (rfc_main.cpp) over POSIX `open`, `flock` and `unlink`.

Every rfcMgr process registers `cleanup_lock_file` with `atexit`, opens the lock path with
`O_CREAT`, tries a non-blocking exclusive `flock` on the inode it opened, and unlinks the path on
every exit. The lock belongs to the inode, the path is only a name for it: a file created after an
unlink is a new inode. Calls of different processes interleave in any order. -/

namespace RfcMgr.Lock

open GuardedRuns

abbrev Pid := Nat
abbrev Inode := Nat

/-- Where one process stands in `main`. -/
inductive Phase where
  | idle
  /-- `atexit(cleanup_lock_file)` has run, `CurrentRunningInst` has not been called. -/
  | started
  /-- Inside `CurrentRunningInst`, between `open` and `flock`. -/
  | opened (fd : Inode)
  /-- `CurrentRunningInst` has returned false; `none` when its `open` failed. -/
  | owner (fd : Option Inode)
  /-- `CurrentRunningInst` has closed its descriptor and returned true. -/
  | rejected
  /-- `exit` has been called; the flag says that the `atexit` handler has run. -/
  | exiting (fd : Option Inode) (cleaned : Bool)
  | exited
  deriving DecidableEq

/-- The lock path, the inodes behind it and the processes. -/
structure LockState where
  path : Option Inode
  nextInode : Inode
  lockedBy : Inode → Option Pid
  phase : Pid → Phase

/-- The calls a process makes, and the two ways `open` can go. -/
inductive Act where
  | start (p : Pid)
  | openLock (p : Pid)
  | openFails (p : Pid)
  | flock (p : Pid)
  | callExit (p : Pid)
  | cleanup (p : Pid)
  | terminate (p : Pid)
  deriving DecidableEq

namespace LockState

def setPhase (s : LockState) (p : Pid) (ph : Phase) : LockState :=
  { s with phase := Function.update s.phase p ph }

/-- `open(file, O_CREAT | O_RDWR, 0666)`: the inode of the path, a fresh one when there is none. -/
def openCreat (s : LockState) : Inode × LockState :=
  match s.path with
  | some i => (i, s)
  | none => (s.nextInode, { s with path := some s.nextInode, nextInode := s.nextInode + 1 })

/-- `flock(fd, LOCK_EX | LOCK_NB)` on a free inode. -/
def lock (s : LockState) (p : Pid) (i : Inode) : LockState :=
  { s with lockedBy := Function.update s.lockedBy i (some p) }

/-- `unlink(RFC_MGR_SERVICE_LOCK_FILE)`; a missing path is not an error the code looks at. -/
def cleanupLockFile (s : LockState) : LockState := { s with path := none }

/-- The kernel closes the descriptor of a process that ends and drops its lock. -/
def closeFd (s : LockState) (p : Pid) (fd : Option Inode) : LockState :=
  { s with lockedBy := fun i => if fd = some i ∧ s.lockedBy i = some p then none else s.lockedBy i }

end LockState

/-- `exit` from a phase: what the process still has open. A signal handler runs
`cleanup_lock_file` and then `exit`, so `cleanup` may run more than once before `terminate`. -/
def exitFd : Phase → Option (Option Inode)
  | .started => some none
  | .opened i => some (some i)
  | .owner fd => some fd
  | .rejected => some none
  | _ => none

/-- One call of one process. -/
def step (s : LockState) : Act → Option LockState
  | .start p => if s.phase p = .idle then some (s.setPhase p .started) else none
  | .openLock p =>
      if s.phase p = .started then some (s.openCreat.2.setPhase p (.opened s.openCreat.1)) else none
  | .openFails p => if s.phase p = .started then some (s.setPhase p (.owner none)) else none
  | .flock p =>
      match s.phase p with
      | .opened i =>
          if s.lockedBy i = none then some ((s.lock p i).setPhase p (.owner (some i)))
          else some (s.setPhase p .rejected)
      | _ => none
  | .callExit p => (exitFd (s.phase p)).map fun fd => s.setPhase p (.exiting fd false)
  | .cleanup p =>
      match s.phase p with
      | .exiting fd _ => some (s.cleanupLockFile.setPhase p (.exiting fd true))
      | _ => none
  | .terminate p =>
      match s.phase p with
      | .exiting fd true => some ((s.closeFd p fd).setPhase p .exited)
      | _ => none

/-- No process runs and no inode is locked; a lock file may be left over from an earlier boot. -/
structure Initial (s : LockState) : Prop where
  idle : ∀ p, s.phase p = .idle
  unlocked : ∀ i, s.lockedBy i = none
  fresh : ∀ i, s.path = some i → i < s.nextInode

/-- The process is past the `CurrentRunningInst` check: it owns the RFC run. -/
def PastCheck (s : LockState) (p : Pid) : Prop := ∃ fd, s.phase p = .owner fd

/-- The condition under which the check excludes: `open` succeeds, and a process unlinks the path
only while no other process has the file behind it open on the way to, or past, the check. -/
def Undisturbed (s : LockState) : Act → Prop
  | .openFails _ => False
  | .cleanup p => ∀ q, q ≠ p → ∀ i, s.path = some i →
      s.phase q ≠ .opened i ∧ s.phase q ≠ .owner (some i)
  | _ => True

/-! ### What one call changes -/

section Frame

variable (s : LockState) (p q : Pid) (ph : Phase)

@[simp] theorem setPhase_phase_self : (s.setPhase p ph).phase p = ph := Function.update_self ..

theorem setPhase_phase_of_ne (h : q ≠ p) : (s.setPhase p ph).phase q = s.phase q :=
  Function.update_of_ne h ..

@[simp] theorem setPhase_path : (s.setPhase p ph).path = s.path := rfl
@[simp] theorem setPhase_nextInode : (s.setPhase p ph).nextInode = s.nextInode := rfl
@[simp] theorem setPhase_lockedBy : (s.setPhase p ph).lockedBy = s.lockedBy := rfl
@[simp] theorem openCreat_phase : s.openCreat.2.phase = s.phase := by
  unfold LockState.openCreat; split <;> rfl
@[simp] theorem openCreat_lockedBy : s.openCreat.2.lockedBy = s.lockedBy := by
  unfold LockState.openCreat; split <;> rfl
@[simp] theorem openCreat_path : s.openCreat.2.path = some s.openCreat.1 := by
  unfold LockState.openCreat
  split
  · assumption
  · rfl

theorem openCreat_eq_of_path {i : Inode} (h : s.path = some i) : s.openCreat = (i, s) := by
  simp only [LockState.openCreat, h]

end Frame

/-- Everything one call can do, with the guard it was taken under. -/
theorem step_cases {s s' : LockState} {a : Act} (h : step s a = some s') :
    (∃ p, a = .start p ∧ s.phase p = .idle ∧ s' = s.setPhase p .started) ∨
    (∃ p, a = .openLock p ∧ s.phase p = .started ∧
      s' = s.openCreat.2.setPhase p (.opened s.openCreat.1)) ∨
    (∃ p, a = .openFails p ∧ s.phase p = .started ∧ s' = s.setPhase p (.owner none)) ∨
    (∃ p i, a = .flock p ∧ s.phase p = .opened i ∧ s.lockedBy i = none ∧
      s' = (s.lock p i).setPhase p (.owner (some i))) ∨
    (∃ p i, a = .flock p ∧ s.phase p = .opened i ∧ s.lockedBy i ≠ none ∧
      s' = s.setPhase p .rejected) ∨
    (∃ p fd, a = .callExit p ∧ exitFd (s.phase p) = some fd ∧ s' = s.setPhase p (.exiting fd false)) ∨
    (∃ p fd b, a = .cleanup p ∧ s.phase p = .exiting fd b ∧
      s' = s.cleanupLockFile.setPhase p (.exiting fd true)) ∨
    (∃ p fd, a = .terminate p ∧ s.phase p = .exiting fd true ∧
      s' = (s.closeFd p fd).setPhase p .exited) := by
  cases a with
  | start p =>
      simp only [step, Option.ite_none_right_eq_some, Option.some.injEq] at h
      exact .inl ⟨p, rfl, h.1, h.2.symm⟩
  | openLock p =>
      simp only [step, Option.ite_none_right_eq_some, Option.some.injEq] at h
      exact .inr (.inl ⟨p, rfl, h.1, h.2.symm⟩)
  | openFails p =>
      simp only [step, Option.ite_none_right_eq_some, Option.some.injEq] at h
      exact .inr (.inr (.inl ⟨p, rfl, h.1, h.2.symm⟩))
  | flock p =>
      simp only [step] at h
      split at h
      case h_2 => cases h
      case h_1 i hi =>
        split at h <;> rename_i hlock
        · exact .inr (.inr (.inr (.inl ⟨p, i, rfl, hi, hlock, (Option.some.inj h).symm⟩)))
        · exact .inr (.inr (.inr (.inr (.inl ⟨p, i, rfl, hi, hlock, (Option.some.inj h).symm⟩))))
  | callExit p =>
      simp only [step, Option.map_eq_some_iff] at h
      obtain ⟨fd, hfd, rfl⟩ := h
      exact .inr (.inr (.inr (.inr (.inr (.inl ⟨p, fd, rfl, hfd, rfl⟩)))))
  | cleanup p =>
      simp only [step] at h
      split at h
      case h_2 => cases h
      case h_1 fd b hp =>
        exact .inr (.inr (.inr (.inr (.inr (.inr (.inl
          ⟨p, fd, b, rfl, hp, (Option.some.inj h).symm⟩))))))
  | terminate p =>
      simp only [step] at h
      split at h
      case h_2 => cases h
      case h_1 fd hp =>
        exact .inr (.inr (.inr (.inr (.inr (.inr (.inr
          ⟨p, fd, rfl, hp, (Option.some.inj h).symm⟩))))))

/-! ### Mutual exclusion -/

/-- Every process on its way to the check, or past it, holds the inode the path names, and an owner
holds its lock. One path and one lock per inode then leave room for one owner. -/
structure Exclusive (s : LockState) : Prop where
  opened : ∀ p i, s.phase p = .opened i → s.path = some i
  owner : ∀ p fd, s.phase p = .owner fd → ∃ i, fd = some i ∧ s.path = some i ∧ s.lockedBy i = some p

theorem Initial.exclusive {s : LockState} (h : Initial s) : Exclusive s where
  opened p i hp := by rw [h.idle p] at hp; cases hp
  owner p fd hp := by rw [h.idle p] at hp; cases hp

theorem Exclusive.pastCheck_unique {s : LockState} (h : Exclusive s) {p q : Pid}
    (hp : PastCheck s p) (hq : PastCheck s q) : p = q := by
  obtain ⟨fd, hp⟩ := hp
  obtain ⟨fd', hq⟩ := hq
  obtain ⟨i, -, hpath, hlock⟩ := h.owner p fd hp
  obtain ⟨i', -, hpath', hlock'⟩ := h.owner q fd' hq
  obtain rfl : i = i' := Option.some.inj (hpath.symm.trans hpath')
  exact Option.some.inj (hlock.symm.trans hlock')

/-- A process that moves to a phase outside the check leaves the claim of the others in place. -/
theorem Exclusive.setPhase {s : LockState} (h : Exclusive s) {p : Pid} {ph : Phase}
    (hopened : ∀ i, ph ≠ .opened i) (howner : ∀ fd, ph ≠ .owner fd) :
    Exclusive (s.setPhase p ph) where
  opened q i hq := by
    by_cases hqp : q = p
    · subst hqp
      rw [setPhase_phase_self] at hq
      exact absurd hq (hopened i)
    · rw [setPhase_phase_of_ne _ _ _ _ hqp] at hq
      exact h.opened q i hq
  owner q fd hq := by
    by_cases hqp : q = p
    · subst hqp
      rw [setPhase_phase_self] at hq
      exact absurd hq (howner fd)
    · rw [setPhase_phase_of_ne _ _ _ _ hqp] at hq
      exact h.owner q fd hq

theorem Exclusive.openCreat {s : LockState} (h : Exclusive s) (p : Pid) :
    Exclusive (s.openCreat.2.setPhase p (.opened s.openCreat.1)) where
  opened q i hq := by
    by_cases hqp : q = p
    · subst hqp
      rw [setPhase_phase_self] at hq
      obtain rfl := Phase.opened.inj hq
      exact openCreat_path s
    · rw [setPhase_phase_of_ne _ _ _ _ hqp, openCreat_phase] at hq
      have hpath := h.opened q i hq
      simpa only [setPhase_path, openCreat_eq_of_path s hpath] using hpath
  owner q fd hq := by
    by_cases hqp : q = p
    · subst hqp
      rw [setPhase_phase_self] at hq
      cases hq
    · rw [setPhase_phase_of_ne _ _ _ _ hqp, openCreat_phase] at hq
      obtain ⟨i, hfd, hpath, hlock⟩ := h.owner q fd hq
      refine ⟨i, hfd, ?_, ?_⟩
      · simpa only [setPhase_path, openCreat_eq_of_path s hpath] using hpath
      · simpa only [setPhase_lockedBy, openCreat_lockedBy] using hlock

theorem Exclusive.lock {s : LockState} (h : Exclusive s) {p : Pid} {i : Inode}
    (hp : s.phase p = .opened i) (hfree : s.lockedBy i = none) :
    Exclusive ((s.lock p i).setPhase p (.owner (some i))) where
  opened q j hq := by
    by_cases hqp : q = p
    · subst hqp
      rw [setPhase_phase_self] at hq
      cases hq
    · rw [setPhase_phase_of_ne _ _ _ _ hqp] at hq
      exact h.opened q j hq
  owner q fd hq := by
    by_cases hqp : q = p
    · subst hqp
      rw [setPhase_phase_self] at hq
      obtain rfl := Phase.owner.inj hq
      exact ⟨i, rfl, h.opened q i hp, Function.update_self ..⟩
    · rw [setPhase_phase_of_ne _ _ _ _ hqp] at hq
      -- an earlier owner would hold the very inode that was found unlocked
      obtain ⟨j, -, hpath, hlock⟩ := h.owner q fd hq
      obtain rfl : i = j := Option.some.inj ((h.opened p i hp).symm.trans hpath)
      rw [hfree] at hlock
      cases hlock

theorem Exclusive.cleanup {s : LockState} (h : Exclusive s) {p : Pid} {fd : Option Inode} {b : Bool}
    (hp : s.phase p = .exiting fd b) (hguard : Undisturbed s (.cleanup p)) :
    Exclusive (s.cleanupLockFile.setPhase p (.exiting fd true)) := by
  have hother : ∀ q, q ≠ p → ∀ i, s.path = some i →
      s.phase q ≠ .opened i ∧ s.phase q ≠ .owner (some i) := hguard
  refine Exclusive.setPhase ⟨?_, ?_⟩ (fun i => by simp) (fun fd => by simp)
  · intro q i hq
    by_cases hqp : q = p
    · subst hqp
      exact absurd (hp.symm.trans hq) (by simp)
    · exact absurd hq (hother q hqp i (h.opened q i hq)).1
  · intro q fd' hq
    by_cases hqp : q = p
    · subst hqp
      exact absurd (hp.symm.trans hq) (by simp)
    · obtain ⟨i, rfl, hpath, -⟩ := h.owner q fd' hq
      exact absurd hq (hother q hqp i hpath).2

theorem Exclusive.terminate {s : LockState} (h : Exclusive s) {p : Pid} {fd : Option Inode}
    (hp : s.phase p = .exiting fd true) : Exclusive ((s.closeFd p fd).setPhase p .exited) := by
  have hclose : Exclusive (s.closeFd p fd) := by
    refine ⟨h.opened, ?_⟩
    intro q fd' hq
    obtain ⟨i, hfd, hpath, hlock⟩ := h.owner q fd' hq
    refine ⟨i, hfd, hpath, ?_⟩
    have hqp : q ≠ p := by
      rintro rfl
      exact absurd (hp.symm.trans hq) (by simp)
    simp only [LockState.closeFd, hlock, Option.some.injEq, hqp, and_false, if_false]
  exact hclose.setPhase (fun i => by simp) (fun fd => by simp)

theorem Exclusive.step {s s' : LockState} {a : Act} (h : Exclusive s) (hguard : Undisturbed s a)
    (hstep : step s a = some s') : Exclusive s' := by
  rcases step_cases hstep with ⟨p, rfl, -, rfl⟩ | ⟨p, rfl, -, rfl⟩ | ⟨p, rfl, -, rfl⟩ |
    ⟨p, i, rfl, hp, hfree, rfl⟩ | ⟨p, i, rfl, -, -, rfl⟩ | ⟨p, fd, rfl, -, rfl⟩ |
    ⟨p, fd, b, rfl, hp, rfl⟩ | ⟨p, fd, rfl, hp, rfl⟩
  · exact h.setPhase (fun i => by simp) (fun fd => by simp)
  · exact h.openCreat p
  · exact absurd hguard id
  · exact h.lock hp hfree
  · exact h.setPhase (fun i => by simp) (fun fd => by simp)
  · exact h.setPhase (fun i => by simp) (fun fd => by simp)
  · exact h.cleanup hp hguard
  · exact h.terminate hp

/-- **Single instance, as far as the lock file gives it.** When no process unlinks the lock file
under another one that uses it, every state of every interleaving has at most one owner. -/
theorem pastCheck_unique_of_undisturbed {s t : LockState} {as : List Act} (hinit : Initial s)
    (hguard : Guarded step Undisturbed s as) (hrun : run step s as = some t) :
    ∀ p q, PastCheck t p → PastCheck t q → p = q := by
  have hinv : Exclusive t :=
    inv_of_guarded (fun _ _ _ h hg hs => h.step hg hs) hinit.exclusive hguard hrun
  intro p q hp hq
  exact hinv.pastCheck_unique hp hq

/-- A device after boot, without a lock file. -/
def booted : LockState where
  path := none
  nextInode := 0
  lockedBy _ := none
  phase _ := .idle

theorem booted_initial : Initial booted where
  idle _ := rfl
  unlocked _ := rfl
  fresh _ h := by cases h

/-- Process 0 runs to its end and process 1 takes the lock it has given up. -/
def handover : List Act :=
  [.start 0, .openLock 0, .flock 0, .callExit 0, .cleanup 0, .terminate 0,
    .start 1, .openLock 1, .flock 1]

theorem pastCheck_unique_handover :
    ∃ t, run step booted handover = some t ∧ PastCheck t 1 ∧
      ∀ p q, PastCheck t p → PastCheck t q → p = q := by
  have hguard : Guarded step Undisturbed booted handover := by
    refine guarded_cons rfl trivial (guarded_cons rfl trivial (guarded_cons rfl trivial
      (guarded_cons rfl trivial (guarded_cons rfl ?_ (guarded_cons rfl trivial
        (guarded_cons rfl trivial (guarded_cons rfl trivial (guarded_cons rfl trivial
          (guarded_nil _)))))))))
    -- at the unlink every process but 0 is still idle
    intro q hq i _
    simp [booted, LockState.setPhase, LockState.openCreat, LockState.lock,
      Function.update_of_ne hq]
  exact ⟨_, rfl, ⟨some 1, rfl⟩, pastCheck_unique_of_undisturbed booted_initial hguard rfl⟩

/-- The owner is process 0. Process 1 is rejected, and its exit unlinks the lock file of process 0.
Process 2 creates the file anew and locks the new inode. -/
def rejectedUnlinks : List Act :=
  [.start 0, .openLock 0, .flock 0,
    .start 1, .openLock 1, .flock 1, .callExit 1, .cleanup 1, .terminate 1,
    .start 2, .openLock 2, .flock 2]

theorem not_pastCheck_unique :
    ¬ ∀ s as t, Initial s → run step s as = some t →
      ∀ p q, PastCheck t p → PastCheck t q → p = q := by
  intro h
  have h02 := h booted rejectedUnlinks _ booted_initial rfl 0 2 ⟨some 0, rfl⟩ ⟨some 1, rfl⟩
  exact absurd h02 (by decide)

end RfcMgr.Lock
