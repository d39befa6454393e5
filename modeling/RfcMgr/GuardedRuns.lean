import Mathlib.Data.Option.Basic
import Mathlib.Data.List.Basic

/-! Runs of a partial step function and the invariant rule for runs whose steps meet a guard.
A run is a list of actions; an action that is not enabled ends it with `none`. -/

namespace GuardedRuns

variable {σ α : Type*}

/-- The state after a list of actions, or `none` when one of them is not enabled. -/
def run (step : σ → α → Option σ) : σ → List α → Option σ
  | s, [] => some s
  | s, a :: as => (step s a).bind fun s' => run step s' as

/-- Every action of the run is taken in a state that meets the guard for it. -/
def Guarded (step : σ → α → Option σ) (guard : σ → α → Prop) : σ → List α → Prop
  | _, [] => True
  | s, a :: as => guard s a ∧ ∀ s', step s a = some s' → Guarded step guard s' as

variable {step : σ → α → Option σ} {guard : σ → α → Prop}

@[simp] theorem run_nil (s : σ) : run step s [] = some s := rfl

theorem run_cons_eq_some {s t : σ} {a : α} {as : List α} :
    run step s (a :: as) = some t ↔ ∃ s', step s a = some s' ∧ run step s' as = some t := by
  simp only [run, Option.bind_eq_some_iff]

theorem guarded_nil (s : σ) : Guarded step guard s [] := trivial

theorem guarded_cons {s s' : σ} {a : α} {as : List α} (hstep : step s a = some s')
    (hguard : guard s a) (hrest : Guarded step guard s' as) : Guarded step guard s (a :: as) := by
  refine ⟨hguard, fun t ht => ?_⟩
  obtain rfl : s' = t := Option.some.inj (hstep.symm.trans ht)
  exact hrest

theorem run_guarded_cons {s s' t : σ} {a : α} {as : List α} (hstep : step s a = some s')
    (hguard : guard s a) (hrest : run step s' as = some t ∧ Guarded step guard s' as) :
    run step s (a :: as) = some t ∧ Guarded step guard s (a :: as) :=
  ⟨run_cons_eq_some.mpr ⟨s', hstep, hrest.1⟩, guarded_cons hstep hguard hrest.2⟩

/-- A guard that only looks at the actions is met as soon as they all meet it. -/
theorem guarded_of_forall {P : α → Prop} {as : List α} (h : ∀ a ∈ as, P a) (s : σ) :
    Guarded step (fun _ a => P a) s as := by
  induction as generalizing s with
  | nil => exact guarded_nil s
  | cons a as ih =>
      exact ⟨h a List.mem_cons_self, fun s' _ => ih (fun b hb => h b (List.mem_cons_of_mem _ hb)) s'⟩

/-- **The invariant rule.** An invariant that every guarded step preserves holds at the end of
every guarded run. Guardedness passes to the prefixes of a run, so it holds in every state of it. -/
theorem inv_of_guarded {inv : σ → Prop}
    (hstep : ∀ s a s', inv s → guard s a → step s a = some s' → inv s')
    {s t : σ} {as : List α} (hinv : inv s) (hguard : Guarded step guard s as)
    (hrun : run step s as = some t) : inv t := by
  induction as generalizing s with
  | nil =>
      obtain rfl : s = t := Option.some.inj hrun
      exact hinv
  | cons a as ih =>
      obtain ⟨s', hs', hrest⟩ := run_cons_eq_some.mp hrun
      exact ih (hstep s a s' hinv hguard.1 hs') (hguard.2 s' hs') hrest

end GuardedRuns
