import Mathlib.Logic.Function.Basic
import Mathlib.Data.Option.Basic

/-! Parties that work on one shared value. A party starts from the value it finds. What the value is while
somebody works is left open, and so is what a party leaves that others have written beside; one that has
been alone with the value leaves what its job makes of it. When nobody starts beside another, the parties
might as well have taken turns. -/

namespace Turns

variable {ι σ : Type*}

/-- A party at work. -/
structure Work (σ : Type*) where
  start : σ
  /-- Nobody else has written since. -/
  alone : Bool

inductive Ending where
  | completed
  /-- It has stopped where it stood. -/
  | cut
  deriving DecidableEq

structure State (ι σ : Type*) where
  value : σ
  work : ι → Option (Work σ)
  /-- The parties that have ended their work, in order. -/
  ended : List (ι × Ending)

inductive Act (ι σ : Type*) where
  | begin (i : ι)
  | write (i : ι) (value : σ)
  /-- `spoilt` is what it leaves when it has not been alone. -/
  | finish (i : ι) (spoilt : σ)
  | cut (i : ι)

section

variable [DecidableEq ι]

namespace State

variable (s : State ι σ) (i : ι)

def setWork (work : Option (Work σ)) : State ι σ := { s with work := Function.update s.work i work }

/-- A write, which the others do not see coming. -/
def write (value : σ) : State ι σ :=
  { s with
    value := value
    work := fun j => if j = i then s.work j else (s.work j).map fun w => { w with alone := false } }

def endWork (ending : Ending) : State ι σ :=
  { s.setWork i none with ended := s.ended ++ [(i, ending)] }

end State

/-- One step; `none` of a job is that the party does not get to its end. -/
def step (job : ι → σ → Option σ) (s : State ι σ) : Act ι σ → Option (State ι σ)
  | .begin i =>
      match s.work i with
      | none => some (s.setWork i (some ⟨s.value, true⟩))
      | some _ => none
  | .write i value =>
      match s.work i with
      | none => none
      | some _ => some (s.write i value)
  | .finish i spoilt =>
      match s.work i with
      | none => none
      | some w =>
          (if w.alone then job i w.start else some spoilt).map fun value =>
            (s.write i value).endWork i .completed
  | .cut i =>
      match s.work i with
      | none => none
      | some _ => some (s.endWork i .cut)

/-- The value may be left so by these parties, one after the other. -/
inductive Serial (job : ι → σ → Option σ) (initial : σ) : List (ι × Ending) → σ → Prop where
  | nil : Serial job initial [] initial
  | completed {ended : List (ι × Ending)} {value value' : σ} {i : ι} (h : Serial job initial ended value)
      (hjob : job i value = some value') : Serial job initial (ended ++ [(i, .completed)]) value'
  | cut {ended : List (ι × Ending)} {value : σ} {i : ι} (h : Serial job initial ended value)
      (value' : σ) : Serial job initial (ended ++ [(i, .cut)]) value'

/-- At most one party is at work, alone, on what the turns before it have left. -/
structure Isolated (job : ι → σ → Option σ) (initial : σ) (s : State ι σ) : Prop where
  unique : ∀ i j, s.work i ≠ none → s.work j ≠ none → i = j
  alone : ∀ i w, s.work i = some w → w.alone = true
  start : ∀ i w, s.work i = some w → Serial job initial s.ended w.start
  value : (∀ i, s.work i = none) → Serial job initial s.ended s.value

/-- Nobody starts beside another. -/
def OneByOne (s : State ι σ) : Act ι σ → Prop
  | .begin i => ∀ j, j ≠ i → s.work j = none
  | _ => True

/-! ### What one step changes -/

section Frame

variable (s : State ι σ) (i j : ι) (work : Option (Work σ)) (value : σ) (ending : Ending)

@[simp] theorem setWork_work_self : (s.setWork i work).work i = work := Function.update_self ..

theorem setWork_work_of_ne (h : j ≠ i) : (s.setWork i work).work j = s.work j :=
  Function.update_of_ne h ..

@[simp] theorem write_work_self : (s.write i value).work i = s.work i := if_pos rfl

theorem write_work_eq_none : (s.write i value).work j = none ↔ s.work j = none := by
  show (if j = i then s.work j else (s.work j).map fun w => { w with alone := false }) = none ↔ _
  split
  · rfl
  · exact Option.map_eq_none_iff

@[simp] theorem endWork_work_self : (s.endWork i ending).work i = none := setWork_work_self ..

theorem endWork_work_of_ne (h : j ≠ i) : (s.endWork i ending).work j = s.work j :=
  setWork_work_of_ne _ _ _ _ h

end Frame

variable {job : ι → σ → Option σ} {initial : σ} {s s' : State ι σ}

/-- Everything a step can do. -/
inductive StepOf (job : ι → σ → Option σ) (s : State ι σ) : Act ι σ → State ι σ → Prop where
  | begin (i : ι) (hi : s.work i = none) : StepOf job s (.begin i) (s.setWork i (some ⟨s.value, true⟩))
  | write (i : ι) (value : σ) (w : Work σ) (hi : s.work i = some w) :
      StepOf job s (.write i value) (s.write i value)
  | finish (i : ι) (spoilt value : σ) (w : Work σ) (hi : s.work i = some w)
      (hvalue : w.alone = true → job i w.start = some value) :
      StepOf job s (.finish i spoilt) ((s.write i value).endWork i .completed)
  | cut (i : ι) (w : Work σ) (hi : s.work i = some w) : StepOf job s (.cut i) (s.endWork i .cut)

theorem stepOf_of_step {a : Act ι σ} (h : step job s a = some s') : StepOf job s a s' := by
  cases a with
  | begin i =>
      simp only [step] at h
      split at h
      next hi =>
        obtain rfl := Option.some.inj h
        exact .begin i hi
      next => cases h
  | write i value =>
      simp only [step] at h
      split at h
      next => cases h
      next w hi =>
        obtain rfl := Option.some.inj h
        exact .write i value w hi
  | finish i spoilt =>
      simp only [step] at h
      split at h
      next => cases h
      next w hi =>
        obtain ⟨value, hvalue, rfl⟩ := Option.map_eq_some_iff.mp h
        refine .finish i spoilt value w hi fun halone => ?_
        rwa [halone, if_pos rfl] at hvalue
  | cut i =>
      simp only [step] at h
      split at h
      next => cases h
      next w hi =>
        obtain rfl := Option.some.inj h
        exact .cut i w hi

/-! ### Taking turns -/

omit [DecidableEq ι] in
/-- The one at work has no company. -/
theorem Isolated.others (h : Isolated job initial s) {i j : ι} {w : Work σ} (hi : s.work i = some w)
    (hj : j ≠ i) : s.work j = none := by
  by_contra hsome
  apply hj
  apply h.unique j i hsome
  rw [hi]
  exact Option.some_ne_none w

theorem Isolated.begin (h : Isolated job initial s) {i : ι} (hi : s.work i = none)
    (hothers : ∀ j, j ≠ i → s.work j = none) :
    Isolated job initial (s.setWork i (some ⟨s.value, true⟩)) := by
  have hnone : ∀ j, s.work j = none := by
    intro j
    by_cases hj : j = i
    · rw [hj, hi]
    · exact hothers j hj
  have honly : ∀ j, (s.setWork i (some ⟨s.value, true⟩)).work j ≠ none → j = i := by
    intro j hj
    by_contra hne
    rw [setWork_work_of_ne _ _ _ _ hne] at hj
    exact hj (hnone j)
  have hwork : ∀ j w, (s.setWork i (some ⟨s.value, true⟩)).work j = some w →
      w = ⟨s.value, true⟩ := by
    intro j w hw
    obtain rfl := honly j (hw ▸ Option.some_ne_none w)
    rw [setWork_work_self] at hw
    exact (Option.some.inj hw).symm
  refine ⟨fun j k hj hk => (honly j hj).trans (honly k hk).symm, ?_, ?_, ?_⟩
  · intro j w hw
    rw [hwork j w hw]
  · intro j w hw
    rw [hwork j w hw]
    exact h.value hnone
  · intro hidle
    exact absurd ((setWork_work_self ..).symm.trans (hidle i)) (Option.some_ne_none _)

theorem Isolated.write (h : Isolated job initial s) {i : ι} {w : Work σ} (hi : s.work i = some w)
    (value : σ) : Isolated job initial (s.write i value) := by
  have hsame : (s.write i value).work = s.work := by
    funext j
    by_cases hj : j = i
    · rw [hj, write_work_self]
    · rw [h.others hi hj, write_work_eq_none]
      exact h.others hi hj
  refine ⟨?_, ?_, ?_, ?_⟩
  · rw [hsame]
    exact h.unique
  · rw [hsame]
    exact h.alone
  · rw [hsame]
    exact h.start
  · rw [hsame]
    exact fun hidle => absurd (hi.symm.trans (hidle i)) (Option.some_ne_none w)

/-- Behind the only one at work nobody is. -/
theorem Isolated.endWork (h : Isolated job initial s) {i : ι} {w : Work σ} (hi : s.work i = some w)
    {ending : Ending} (hserial : Serial job initial (s.ended ++ [(i, ending)]) s.value) :
    Isolated job initial (s.endWork i ending) := by
  have hnone : ∀ j, (s.endWork i ending).work j = none := by
    intro j
    by_cases hj : j = i
    · rw [hj, endWork_work_self]
    · rw [endWork_work_of_ne _ _ _ _ hj]
      exact h.others hi hj
  have hidle : ∀ j w', (s.endWork i ending).work j ≠ some w' := by
    intro j w'
    rw [hnone j]
    exact (Option.some_ne_none w').symm
  exact ⟨fun j _ hj => absurd (hnone j) hj, fun j w' hw => absurd hw (hidle j w'),
    fun j w' hw => absurd hw (hidle j w'), fun _ => hserial⟩

theorem Isolated.step {a : Act ι σ} (h : Isolated job initial s) (hguard : OneByOne s a)
    (hstep : step job s a = some s') : Isolated job initial s' := by
  cases stepOf_of_step hstep with
  | begin i hi => exact h.begin hi hguard
  | write i value w hi => exact h.write hi value
  | finish i spoilt value w hi hvalue =>
      have hwrite : (s.write i value).work i = some w := (write_work_self ..).trans hi
      apply (h.write hi value).endWork hwrite
      exact .completed (h.start i w hi) (hvalue (h.alone i w hi))
  | cut i w hi => exact h.endWork hi (.cut (h.start i w hi) s.value)

end

end Turns
