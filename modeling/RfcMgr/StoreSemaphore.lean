import RfcMgr.LocalStore
import RfcMgr.GuardedRuns

/-! Concurrent callers of the local store. Each call opens the named semaphore, waits on it, reads the
store file, writes it back and posts; a `sem_wait` that returns -1 is logged and the call goes on as
if it had taken the semaphore, its post included. -/

namespace RfcMgr.LocalStore

open Std KeyValueLines GuardedRuns

/-- What a caller asks for. -/
inductive Op where
  | update (call : Call)
  | get (pcCallerID : Option Str) (pcParameterName : Str)

/-- Where a caller stands. -/
inductive Phase where
  /-- It has opened the semaphore, or is about to. -/
  | idle
  /-- `sem_wait` has returned, with whatever result. -/
  | waited
  /-- `setValue` has read the store file into its map. -/
  | read (dict : Dict)
  /-- The status is known and `sem_post` is next. -/
  | finished (status : Tr181ErrorCode)
  /-- The call has returned. -/
  | done (status : Tr181ErrorCode)

/-- The semaphore, the files and the callers. -/
structure Shared (ι : Type) where
  count : Nat
  files : Files
  phase : ι → Phase
  /-- The updates in the order of their write-backs. -/
  updates : List (ι × Access)

inductive Act (ι : Type) where
  | semOpenFails (i : ι)
  | semWait (i : ι)
  /-- `sem_wait` returns -1. -/
  | semWaitFails (i : ι)
  | read (i : ι)
  | rewrite (i : ι) (env : Access)
  | semPost (i : ι)

section

variable {ι : Type} [DecidableEq ι] (op : ι → Op)

namespace Shared

def setPhase (s : Shared ι) (i : ι) (phase : Phase) : Shared ι :=
  { s with phase := Function.update s.phase i phase }

end Shared

/-- One step of one caller; `sem_wait` blocks while the count is zero. -/
def step (s : Shared ι) : Act ι → Option (Shared ι)
  | .semOpenFails i =>
      match s.phase i with
      | .idle => some (s.setPhase i (.done .failure))
      | _ => none
  | .semWait i =>
      match s.phase i with
      | .idle =>
          if 0 < s.count then some ({ s with count := s.count - 1 }.setPhase i .waited) else none
      | _ => none
  | .semWaitFails i =>
      match s.phase i with
      | .idle => some (s.setPhase i .waited)
      | _ => none
  | .read i =>
      match s.phase i, op i with
      | .waited, .update _ => some (s.setPhase i (.read (readDict (s.files tr181LocalStoreFile))))
      | .waited, .get pcCallerID name =>
          some (s.setPhase i (.finished (getLocalParam true s.files pcCallerID name).status))
      | _, _ => none
  | .rewrite i env =>
      match s.phase i, op i with
      | .read dict, .update call =>
          let (status, content) := writeBack env dict call.arguments.1 call.arguments.2
          some ({ s with
            files := storeWritten s.files content
            updates := s.updates ++ [(i, env)] }.setPhase i (.finished status))
      | _, _ => none
  | .semPost i =>
      match s.phase i with
      | .finished status => some ({ s with count := s.count + 1 }.setPhase i (.done status))
      | _ => none

/-- Nobody has called yet; the semaphore is the one `sem_open` creates. -/
structure Initial (s : Shared ι) : Prop where
  idle : ∀ i, s.phase i = .idle
  count : s.count = 1
  updates : s.updates = []

/-- A caller in this phase is between its wait and its post. -/
def Phase.inside : Phase → Bool
  | .idle | .done _ => false
  | .waited | .read _ | .finished _ => true

def Inside (s : Shared ι) (i : ι) : Prop := (s.phase i).inside = true

/-- What one update alone does to the files, and its status. -/
def alone (update : ι × Access) (files : Files) : Tr181ErrorCode × Files :=
  match op update.1 with
  | .update call => setValue update.2 files call.arguments.1 call.arguments.2
  | .get _ _ => (.failure, files)

/-- The files after some updates, one after the other. -/
def serial (files : Files) (updates : List (ι × Access)) : Files :=
  updates.foldl (fun files update => (alone op update files).2) files

/-- The parameters after some updates, of which those that could not write change nothing. -/
def serialParams (params : Str → Option Str) (updates : List (ι × Access)) : Str → Option Str :=
  updates.foldl (fun params update =>
    match op update.1 with
    | .update call => if update.2.storeOpens then call.apply params else params
    | .get _ _ => params) params

/-- The local store is mutually exclusive in a state reached from `s₀`. -/
structure Isolated (s₀ s : Shared ι) : Prop where
  exclusive : ∀ i j, Inside s i → Inside s j → i = j
  count_le : s.count ≤ 1
  /-- An update that was reported as a success did succeed on what its predecessors left. -/
  reported : ∀ i call, op i = .update call → s.phase i = .done .success →
    ∃ before env after, s.updates = before ++ (i, env) :: after ∧
      (alone op (i, env) (serial op s₀.files before)).1 = .success
  /-- The files are those that the updates leave one after the other. -/
  serial : s.files = serial op s₀.files s.updates
  /-- With names and values the line format can hold, the store file lists what they have set. -/
  kept : (∀ i call, op i = .update call → call.Plain) → ∀ params, Holds s₀.files params →
    Holds s.files (serialParams op params s.updates)

/-- The condition under which it is: no `sem_wait` returns -1. -/
def Waits : Act ι → Prop
  | .semWaitFails _ => False
  | _ => True

/-! ### What one step does -/

section Frame

variable (s : Shared ι) (i j : ι) (phase : Phase)

@[simp] theorem setPhase_phase_self : (s.setPhase i phase).phase i = phase := Function.update_self ..

theorem setPhase_phase_of_ne (h : j ≠ i) : (s.setPhase i phase).phase j = s.phase j :=
  Function.update_of_ne h ..

@[simp] theorem setPhase_count : (s.setPhase i phase).count = s.count := rfl
@[simp] theorem setPhase_files : (s.setPhase i phase).files = s.files := rfl
@[simp] theorem setPhase_updates : (s.setPhase i phase).updates = s.updates := rfl

end Frame

/-- Everything a step can do, with the phase it was taken in. -/
inductive StepOf (s : Shared ι) : Act ι → Shared ι → Prop where
  | semOpenFails (i : ι) (hi : s.phase i = .idle) :
      StepOf s (.semOpenFails i) (s.setPhase i (.done .failure))
  | semWait (i : ι) (hi : s.phase i = .idle) (hcount : 0 < s.count) :
      StepOf s (.semWait i) ({ s with count := s.count - 1 }.setPhase i .waited)
  | semWaitFails (i : ι) (hi : s.phase i = .idle) :
      StepOf s (.semWaitFails i) (s.setPhase i .waited)
  | readDict (i : ι) (hi : s.phase i = .waited) :
      StepOf s (.read i) (s.setPhase i (.read (readDict (s.files tr181LocalStoreFile))))
  | readParam (i : ι) (hi : s.phase i = .waited) (pcCallerID : Option Str) (name : Str)
      (hop : op i = .get pcCallerID name) (status : Tr181ErrorCode) :
      StepOf s (.read i) (s.setPhase i (.finished status))
  | rewrite (i : ι) (env : Access) (dict : Dict) (hi : s.phase i = .read dict) (call : Call)
      (hop : op i = .update call) :
      StepOf s (.rewrite i env)
        ({ s with
          files := storeWritten s.files
            (writeBack env dict call.arguments.1 call.arguments.2).2
          updates := s.updates ++ [(i, env)] }.setPhase i
            (.finished (writeBack env dict call.arguments.1 call.arguments.2).1))
  | semPost (i : ι) (status : Tr181ErrorCode) (hi : s.phase i = .finished status) :
      StepOf s (.semPost i) ({ s with count := s.count + 1 }.setPhase i (.done status))

theorem stepOf_of_step {s s' : Shared ι} {a : Act ι} (h : step op s a = some s') :
    StepOf op s a s' := by
  cases a with
  | semOpenFails i =>
      simp only [step] at h
      split at h
      next hi =>
        obtain rfl := Option.some.inj h
        exact .semOpenFails i hi
      next => cases h
  | semWait i =>
      simp only [step] at h
      split at h
      next hi =>
        obtain ⟨hcount, rfl⟩ := Option.ite_none_right_eq_some.mp h |>.imp id Option.some.inj
        exact .semWait i hi hcount
      next => cases h
  | semWaitFails i =>
      simp only [step] at h
      split at h
      next hi =>
        obtain rfl := Option.some.inj h
        exact .semWaitFails i hi
      next => cases h
  | read i =>
      simp only [step] at h
      split at h
      next hi _ =>
        obtain rfl := Option.some.inj h
        exact .readDict i hi
      next pcCallerID name hi hop =>
        obtain rfl := Option.some.inj h
        exact .readParam i hi pcCallerID name hop _
      next => cases h
  | rewrite i env =>
      simp only [step] at h
      split at h
      next dict call hi hop =>
        obtain rfl := Option.some.inj h
        exact .rewrite i env dict hi call hop
      next => cases h
  | semPost i =>
      simp only [step] at h
      split at h
      next status hi =>
        obtain rfl := Option.some.inj h
        exact .semPost i status hi
      next => cases h

/-! ### Mutual exclusion -/

/-- A caller inside has the semaphore, and there is one to have. -/
structure Exclusive (s : Shared ι) : Prop where
  count_le : s.count ≤ 1
  taken : ∀ i, Inside s i → s.count = 0
  unique : ∀ i j, Inside s i → Inside s j → i = j

omit [DecidableEq ι] in
theorem Exclusive.empty {s : Shared ι} (h : Exclusive s) (hcount : 0 < s.count) (i : ι) :
    ¬Inside s i := fun hi => by
  have hzero := h.taken i hi
  omega

/-- A caller changes its phase without going in from the outside. -/
theorem Exclusive.setPhase {s : Shared ι} (h : Exclusive s) {i : ι} {phase : Phase}
    (hin : phase.inside = true → Inside s i) : Exclusive (s.setPhase i phase) := by
  have hback : ∀ j, Inside (s.setPhase i phase) j → Inside s j := by
    intro j hj
    by_cases hji : j = i
    · subst hji
      rw [Inside, setPhase_phase_self] at hj
      exact hin hj
    · rwa [Inside, setPhase_phase_of_ne _ _ _ _ hji] at hj
  exact ⟨h.count_le, fun j hj => h.taken j (hback j hj),
    fun j k hj hk => h.unique j k (hback j hj) (hback k hk)⟩

theorem Exclusive.semWait {s : Shared ι} (h : Exclusive s) (i : ι) (hcount : 0 < s.count) :
    Exclusive ({ s with count := s.count - 1 }.setPhase i .waited) := by
  have hle := h.count_le
  have honly : ∀ j, Inside ({ s with count := s.count - 1 }.setPhase i .waited) j → j = i := by
    intro j hj
    by_contra hji
    rw [Inside, setPhase_phase_of_ne _ _ _ _ hji] at hj
    exact h.empty hcount j hj
  refine ⟨?_, ?_, fun j k hj hk => (honly j hj).trans (honly k hk).symm⟩
  · show s.count - 1 ≤ 1
    omega
  · intro j _
    show s.count - 1 = 0
    omega

theorem Exclusive.semPost {s : Shared ι} (h : Exclusive s) {i : ι} {status : Tr181ErrorCode}
    (hi : Inside s i) : Exclusive ({ s with count := s.count + 1 }.setPhase i (.done status)) := by
  have hzero := h.taken i hi
  have hnone : ∀ j, ¬Inside ({ s with count := s.count + 1 }.setPhase i (.done status)) j := by
    intro j hj
    by_cases hji : j = i
    · subst hji
      rw [Inside, setPhase_phase_self] at hj
      cases hj
    · rw [Inside, setPhase_phase_of_ne _ _ _ _ hji] at hj
      exact hji (h.unique j i hj hi)
  refine ⟨?_, fun j hj => absurd hj (hnone j), fun j _ hj _ => absurd hj (hnone j)⟩
  show s.count + 1 ≤ 1
  omega

theorem Exclusive.step {s s' : Shared ι} (h : Exclusive s) {a : Act ι} (hwaits : Waits a)
    (hstep : StepOf op s a s') : Exclusive s' := by
  cases hstep with
  | semOpenFails i hi => exact h.setPhase fun hin => by cases hin
  | semWait i hi hcount => exact h.semWait i hcount
  | semWaitFails i hi => exact absurd hwaits id
  | readDict i hi => exact h.setPhase fun _ => by rw [Inside, hi]; rfl
  | readParam i hi pcCallerID name hop status =>
      exact h.setPhase fun _ => by rw [Inside, hi]; rfl
  | rewrite i env dict hi call hop =>
      have hfiles : Exclusive { s with
          files := storeWritten s.files
            (writeBack env dict call.arguments.1 call.arguments.2).2
          updates := s.updates ++ [(i, env)] } := ⟨h.count_le, h.taken, h.unique⟩
      exact hfiles.setPhase fun _ => by rw [Inside, hi]; rfl
  | semPost i status hi => exact h.semPost (by rw [Inside, hi]; rfl)

/-! ### Lost updates -/

omit [DecidableEq ι] in
theorem serial_snoc (files : Files) (updates : List (ι × Access)) (update : ι × Access) :
    serial op files (updates ++ [update]) = (alone op update (serial op files updates)).2 := by
  simp [serial]

omit [DecidableEq ι] in
/-- The updates leave in the file what they are meant to, one after the other. -/
theorem Holds.serial {files : Files} {params : Str → Option Str} (h : Holds files params)
    (hplain : ∀ i call, op i = .update call → call.Plain) (updates : List (ι × Access)) :
    Holds (serial op files updates) (serialParams op params updates) := by
  induction updates generalizing files params with
  | nil => exact h
  | cons update updates ih =>
      rw [LocalStore.serial, serialParams, List.foldl_cons, List.foldl_cons]
      apply ih
      unfold alone
      cases hop : op update.1 with
      | get pcCallerID name => exact h
      | update call =>
          cases hstore : update.2.storeOpens with
          | true => exact (h.update hstore (hplain update.1 call hop)).2
          | false =>
              simp only [setValue_of_not_opens hstore]
              exact h

/-- What a run of waiting callers keeps: a map that has been read is still the content of the file,
and every update that is known to have succeeded is among those the files account for. -/
structure Accounted (s₀ s : Shared ι) : Prop where
  exclusive : Exclusive s
  fresh : ∀ i dict, s.phase i = .read dict → dict = readDict (s.files tr181LocalStoreFile)
  reported : ∀ i call, op i = .update call →
    s.phase i = .finished .success ∨ s.phase i = .done .success →
    ∃ before env after, s.updates = before ++ (i, env) :: after ∧
      (alone op (i, env) (serial op s₀.files before)).1 = .success
  serial : s.files = serial op s₀.files s.updates

omit [DecidableEq ι] in
theorem Initial.accounted {s : Shared ι} (h : Initial s) : Accounted op s s where
  exclusive := by
    have hout : ∀ i, ¬Inside s i := fun i hi => by
      rw [Inside, h.idle i] at hi
      cases hi
    exact ⟨h.count.le, fun i hi => absurd hi (hout i), fun i _ hi _ => absurd hi (hout i)⟩
  fresh i dict hi := by
    rw [h.idle i] at hi
    cases hi
  reported i call hop hi := by
    rw [h.idle i] at hi
    rcases hi with hi | hi
    · cases hi
    · cases hi
  serial := by
    rw [h.updates]
    rfl

/-- A step that moves one caller and leaves the files keeps the account. -/
theorem Accounted.move {s₀ s t : Shared ι} (h : Accounted op s₀ s) {i : ι} {phase : Phase}
    (hexclusive : Exclusive (t.setPhase i phase)) (hphase : t.phase = s.phase)
    (hfiles : t.files = s.files) (hupdates : t.updates = s.updates)
    (hread : ∀ dict, phase = .read dict → dict = readDict (s.files tr181LocalStoreFile))
    (hsuccess : phase = .finished .success ∨ phase = .done .success →
      (∃ pcCallerID name, op i = .get pcCallerID name) ∨ s.phase i = .finished .success) :
    Accounted op s₀ (t.setPhase i phase) where
  exclusive := hexclusive
  fresh j dict hj := by
    by_cases hji : j = i
    · subst hji
      rw [setPhase_phase_self] at hj
      rw [setPhase_files, hfiles]
      exact hread dict hj
    · rw [setPhase_phase_of_ne _ _ _ _ hji, hphase] at hj
      rw [setPhase_files, hfiles]
      exact h.fresh j dict hj
  reported j call hop hj := by
    rw [setPhase_updates, hupdates]
    by_cases hji : j = i
    · subst hji
      rw [setPhase_phase_self] at hj
      rcases hsuccess hj with ⟨pcCallerID, name, hget⟩ | hfinished
      · rw [hget] at hop
        cases hop
      · exact h.reported j call hop (Or.inl hfinished)
    · rw [setPhase_phase_of_ne _ _ _ _ hji, hphase] at hj
      exact h.reported j call hop hj
  serial := by
    rw [setPhase_files, setPhase_updates, hfiles, hupdates]
    exact h.serial

/-- The one caller inside writes back what it read, so its update runs alone. -/
theorem Accounted.rewrite {s₀ s : Shared ι} (h : Accounted op s₀ s) {i : ι} {env : Access}
    {dict : Dict} (hi : s.phase i = .read dict) {call : Call} (hop : op i = .update call)
    (hexclusive : Exclusive ({ s with
      files := storeWritten s.files (writeBack env dict call.arguments.1 call.arguments.2).2
      updates := s.updates ++ [(i, env)] }.setPhase i
        (.finished (writeBack env dict call.arguments.1 call.arguments.2).1))) :
    Accounted op s₀ ({ s with
      files := storeWritten s.files (writeBack env dict call.arguments.1 call.arguments.2).2
      updates := s.updates ++ [(i, env)] }.setPhase i
        (.finished (writeBack env dict call.arguments.1 call.arguments.2).1)) := by
  have hinside : Inside s i := by
    rw [Inside, hi]
    rfl
  have halone : alone op (i, env) s.files =
      ((writeBack env dict call.arguments.1 call.arguments.2).1,
        storeWritten s.files (writeBack env dict call.arguments.1 call.arguments.2).2) := by
    rw [alone, hop, h.fresh i dict hi]
    rfl
  refine ⟨hexclusive, ?_, ?_, ?_⟩
  · intro j other hj
    by_cases hji : j = i
    · subst hji
      rw [setPhase_phase_self] at hj
      cases hj
    · rw [setPhase_phase_of_ne _ _ _ _ hji] at hj
      have hin : Inside s j := by
        rw [Inside, show s.phase j = .read other from hj]
        rfl
      exact absurd (h.exclusive.unique j i hin hinside) hji
  · intro j other hother hj
    rw [setPhase_updates]
    by_cases hji : j = i
    · subst hji
      rw [setPhase_phase_self] at hj
      refine ⟨s.updates, env, [], rfl, ?_⟩
      rw [← h.serial, halone]
      rcases hj with hj | hj
      · exact Phase.finished.inj hj
      · cases hj
    · rw [setPhase_phase_of_ne _ _ _ _ hji] at hj
      obtain ⟨before, env', after, hupdates, hsuccess⟩ := h.reported j other hother hj
      exact ⟨before, env', after ++ [(i, env)], by simp [hupdates], hsuccess⟩
  · rw [setPhase_files, setPhase_updates, serial_snoc, ← h.serial, halone]

theorem Accounted.step {s₀ s s' : Shared ι} (h : Accounted op s₀ s) {a : Act ι} (hwaits : Waits a)
    (hstep : StepOf op s a s') : Accounted op s₀ s' := by
  have hexclusive := h.exclusive.step op hwaits hstep
  cases hstep with
  | semOpenFails i hi =>
      exact h.move op hexclusive rfl rfl rfl (fun _ h => by cases h) fun h => by simp at h
  | semWait i hi hcount =>
      exact h.move op hexclusive rfl rfl rfl (fun _ h => by cases h) fun h => by simp at h
  | semWaitFails i hi => exact absurd hwaits id
  | readDict i hi =>
      exact h.move op hexclusive rfl rfl rfl (fun _ heq => (Phase.read.inj heq).symm)
        fun h => by simp at h
  | readParam i hi pcCallerID name hop status =>
      exact h.move op hexclusive rfl rfl rfl (fun _ h => by cases h)
        fun _ => Or.inl ⟨pcCallerID, name, hop⟩
  | rewrite i env dict hi call hop => exact h.rewrite op hi hop hexclusive
  | semPost i status hi =>
      refine h.move op hexclusive rfl rfl rfl (fun _ h => by cases h) fun h => Or.inr ?_
      rcases h with h | h
      · cases h
      · rw [hi, Phase.done.inj h]

/-- Whatever callers there are and however their steps interleave, they exclude each other and lose
no update as long as no `sem_wait` returns -1. -/
theorem isolated_of_waits {s₀ s : Shared ι} (hinit : Initial s₀) (acts : List (Act ι))
    (hwaits : ∀ a ∈ acts, Waits a) (hrun : run (step op) s₀ acts = some s) :
    Isolated op s₀ s := by
  have hstep : ∀ s a s', Accounted op s₀ s → Waits a → LocalStore.step op s a = some s' →
      Accounted op s₀ s' := fun s a s' h ha hs => h.step op ha (stepOf_of_step op hs)
  have h : Accounted op s₀ s := 
    inv_of_guarded hstep (hinit.accounted op) (guarded_of_forall hwaits s₀) hrun
  refine ⟨h.exclusive.unique, h.exclusive.count_le, ?_, h.serial, ?_⟩
  · exact fun i call hop hi => h.reported i call hop (Or.inr hi)
  · intro hplain params hparams
    rw [h.serial]
    exact hparams.serial op hplain s.updates

end

/-! ### Two callers -/

/-- One caller sets A, the other B. -/
def twoSets (i : Bool) : Op := .update (.set (if i then "A".toList else "B".toList) "1".toList)

def unused : Shared Bool := ⟨1, fun _ => none, fun _ => .idle, []⟩

theorem initial_unused : Initial unused := ⟨fun _ => rfl, rfl, rfl⟩

/-- Both callers take the semaphore, one after the other. -/
theorem isolated_of_waits_twoSets :
    let env : Access := ⟨true, true, .same⟩
    ∃ s, run (step twoSets) unused [.semWait true, .read true, .rewrite true env, .semPost true,
        .semWait false, .read false, .rewrite false env, .semPost false] = some s ∧
      Isolated twoSets unused s :=
  ⟨_, rfl, isolated_of_waits twoSets initial_unused
    [.semWait true, .read true, .rewrite true ⟨true, true, .same⟩, .semPost true,
      .semWait false, .read false, .rewrite false ⟨true, true, .same⟩, .semPost false]
    (by simp [Waits]) rfl⟩

/-- The `sem_wait` of the second caller returns -1 while the first is inside: both are inside, the
first update is reported as a success and lost, and the semaphore admits two from then on. -/
theorem not_isolated :
    let env : Access := ⟨true, true, .same⟩
    ∃ m s, run (step twoSets) unused [.semWait true, .semWaitFails false] = some m ∧
      Inside m true ∧ Inside m false ∧
      run (step twoSets) m [.read true, .read false, .rewrite true env, .rewrite false env,
        .semPost true, .semPost false] = some s ∧
      s.phase true = .done .success ∧ s.count = 2 ∧
      (getLocalParam true s.files none "A".toList).status = .failure ∧
      ¬Isolated twoSets unused s := by
  refine ⟨_, _, rfl, rfl, rfl, rfl, rfl, rfl, by decide +kernel, fun h => ?_⟩
  have hcount : 2 ≤ 1 := h.count_le
  omega

end RfcMgr.LocalStore
