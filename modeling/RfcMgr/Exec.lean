import Mathlib.Data.List.Basic

/-! Computations over a state that return a value or crash, and the two loops of C code over them: a
`for` over a list and a bounded `while` with `break`. A crash keeps the state it happened in, so an
invariant that every step keeps holds at a crash too. -/

inductive Exec (σ α : Type*) where
  | ok (a : α) (s : σ)
  | crash (s : σ)

namespace Exec

variable {σ α β ι : Type*}

/-- The state at the end, returned or crashed. -/
def state : Exec σ α → σ
  | ok _ s => s
  | crash s => s

/-- What is returned, when nothing crashed. -/
def value? : Exec σ α → Option α
  | ok a _ => some a
  | crash _ => none

def Returned : Exec σ α → Prop
  | ok _ _ => True
  | crash _ => False

def bind : Exec σ α → (α → σ → Exec σ β) → Exec σ β
  | ok a s, f => f a s
  | crash s, _ => crash s

@[simp] theorem state_ok (a : α) (s : σ) : (ok a s).state = s := rfl
@[simp] theorem state_crash (s : σ) : (crash s : Exec σ α).state = s := rfl
@[simp] theorem bind_ok (a : α) (s : σ) (f : α → σ → Exec σ β) : (ok a s).bind f = f a s := rfl
@[simp] theorem bind_crash (s : σ) (f : α → σ → Exec σ β) : (crash s).bind f = crash s := rfl

theorem eq_ok_of_value? {x : Exec σ α} {a : α} (h : x.value? = some a) : x = ok a x.state := by
  cases x with
  | ok a' s => rw [Option.some.inj h, state_ok]
  | crash s => cases h

theorem returned_of_isSome {x : Exec σ α} (h : x.value?.isSome = true) : x.Returned := by
  cases x with
  | ok a s => trivial
  | crash s => cases h

theorem bind_eq_ok {x : Exec σ α} {f : α → σ → Exec σ β} {b : β} {t : σ} :
    x.bind f = ok b t ↔ ∃ a s, x = ok a s ∧ f a s = ok b t := by
  cases x with
  | ok a s =>
      simp only [bind_ok, ok.injEq]
      constructor
      · intro h
        exact ⟨a, s, ⟨rfl, rfl⟩, h⟩
      · rintro ⟨a', s', ⟨rfl, rfl⟩, h⟩
        exact h
  | crash s => simp

/-- What holds at the end of `x`, and is kept by what follows, holds at the end of both. -/
theorem state_bind {P : σ → Prop} {x : Exec σ α} {f : α → σ → Exec σ β} (hx : P x.state)
    (hf : ∀ a s, x = ok a s → P s → P (f a s).state) : P (x.bind f).state := by
  cases x with
  | ok a s => exact hf a s rfl hx
  | crash s => exact hx

/-! ### A `for` loop over a list -/

/-- The body gets the item and the loop's variables, and returns the variables for the next item. -/
def forList (body : ι → α → σ → Exec σ α) : List ι → α → σ → Exec σ α
  | [], a, s => ok a s
  | i :: is, a, s => (body i a s).bind (forList body is)

variable {body : ι → α → σ → Exec σ α}

@[simp] theorem forList_nil (a : α) (s : σ) : forList body [] a s = ok a s := rfl

theorem forList_cons (i : ι) (is : List ι) (a : α) (s : σ) :
    forList body (i :: is) a s = (body i a s).bind (forList body is) := rfl

theorem forList_append (is js : List ι) (a : α) (s : σ) :
    forList body (is ++ js) a s = (forList body is a s).bind (forList body js) := by
  induction is generalizing a s with
  | nil => rfl
  | cons i is ih =>
      rw [List.cons_append, forList_cons, forList_cons]
      cases hbody : body i a s with
      | ok a' s' => simpa only [bind_ok] using ih a' s'
      | crash s' => rfl

/-- The loop rule for a relation of the first state to the last. -/
theorem forList_state {R : σ → σ → Prop} (hrefl : ∀ s, R s s)
    (htrans : ∀ s t u, R s t → R t u → R s u) {is : List ι}
    (hbody : ∀ i ∈ is, ∀ a s, R s (body i a s).state) (a : α) (s : σ) :
    R s (forList body is a s).state := by
  induction is generalizing a s with
  | nil => exact hrefl s
  | cons i is ih =>
      have hfirst : R s (body i a s).state := hbody i List.mem_cons_self a s
      rw [forList_cons]
      refine state_bind hfirst ?_
      intro a' s' _ hs'
      exact htrans _ _ _ hs' (ih (fun j hj => hbody j (List.mem_cons_of_mem i hj)) a' s')

/-- The loop comes to the item `i`, with the variables `b` and in the state `t`. -/
def Reaches (body : ι → α → σ → Exec σ α) (is : List ι) (a : α) (s : σ) (i : ι) (b : α) (t : σ) : Prop :=
  ∃ earlier later, is = earlier ++ i :: later ∧ forList body earlier a s = ok b t

theorem reaches_cons {i j : ι} {is : List ι} {a b : α} {s t : σ} :
    Reaches body (i :: is) a s j b t ↔ (j = i ∧ b = a ∧ t = s) ∨
      ∃ a' s', body i a s = ok a' s' ∧ Reaches body is a' s' j b t := by
  constructor
  · rintro ⟨earlier, later, his, hrun⟩
    cases earlier with
    | nil =>
        obtain ⟨rfl, rfl⟩ := List.cons.inj his
        obtain ⟨rfl, rfl⟩ := ok.inj hrun
        exact Or.inl ⟨rfl, rfl, rfl⟩
    | cons first earlier =>
        obtain ⟨rfl, rfl⟩ := List.cons.inj his
        obtain ⟨a', s', hfirst, hrest⟩ := bind_eq_ok.mp hrun
        exact Or.inr ⟨a', s', hfirst, earlier, later, rfl, hrest⟩
  · rintro (⟨rfl, rfl, rfl⟩ | ⟨a', s', hfirst, earlier, later, rfl, hrest⟩)
    · exact ⟨[], is, rfl, rfl⟩
    · exact ⟨i :: earlier, later, rfl, bind_eq_ok.mpr ⟨a', s', hfirst, hrest⟩⟩

/-- **What a loop gathers.** A fact that no pass takes away holds at the end exactly when it held at the
start or a pass that was reached has added it. -/
theorem forList_gathers {P : σ → Prop} {Q : ι → α → σ → Prop} {is : List ι}
    (hbody : ∀ i ∈ is, ∀ a s, P (body i a s).state ↔ P s ∨ Q i a s) (a : α) (s : σ) :
    P (forList body is a s).state ↔ P s ∨ ∃ i b t, Reaches body is a s i b t ∧ Q i b t := by
  induction is generalizing a s with
  | nil =>
      have hnone : ∀ i b t, ¬ Reaches body [] a s i b t := by
        rintro i b t ⟨earlier, later, his, -⟩
        exact List.append_ne_nil_of_right_ne_nil earlier (List.cons_ne_nil i later) his.symm
      simp [hnone]
  | cons i is ih =>
      have hfirst := hbody i List.mem_cons_self a s
      have hsplit : (∃ j b t, Reaches body (i :: is) a s j b t ∧ Q j b t) ↔ Q i a s ∨
          ∃ a' s', body i a s = ok a' s' ∧ ∃ j b t, Reaches body is a' s' j b t ∧ Q j b t := by
        constructor
        · rintro ⟨j, b, t, hreach, hadds⟩
          rcases reaches_cons.mp hreach with ⟨rfl, rfl, rfl⟩ | ⟨a', s', hpass, hrest⟩
          · exact Or.inl hadds
          · exact Or.inr ⟨a', s', hpass, j, b, t, hrest, hadds⟩
        · rintro (hadds | ⟨a', s', hpass, j, b, t, hrest, hadds⟩)
          · exact ⟨i, a, s, reaches_cons.mpr (Or.inl ⟨rfl, rfl, rfl⟩), hadds⟩
          · exact ⟨j, b, t, reaches_cons.mpr (Or.inr ⟨a', s', hpass, hrest⟩), hadds⟩
      rw [hsplit, ← or_assoc, ← hfirst, forList_cons]
      cases hpass : body i a s with
      | ok a' s' =>
          rw [bind_ok, state_ok, ih (fun j hj => hbody j (List.mem_cons_of_mem i hj))]
          simp
      | crash s' =>
          rw [bind_crash]
          simp

/-- Some pass that is reached switches on, and no pass reached behind it switches off. -/
def LeavesOn (body : ι → α → σ → Exec σ α) (on off : ι → α → σ → Prop) (is : List ι) (a : α) (s : σ) :
    Prop :=
  ∃ earlier i later b t, is = earlier ++ i :: later ∧ forList body earlier a s = ok b t ∧ on i b t ∧
    ∀ b' t', body i b t = ok b' t' → ∀ j c u, Reaches body later b' t' j c u → ¬ off j c u

theorem leavesOn_cons {on off : ι → α → σ → Prop} {i : ι} {is : List ι} {a : α} {s : σ} :
    LeavesOn body on off (i :: is) a s ↔
      (on i a s ∧ ∀ a' s', body i a s = ok a' s' → ∀ j c u, Reaches body is a' s' j c u → ¬ off j c u) ∨
        ∃ a' s', body i a s = ok a' s' ∧ LeavesOn body on off is a' s' := by
  constructor
  · rintro ⟨earlier, k, later, b, t, his, hrun, hon, hoff⟩
    cases earlier with
    | nil =>
        obtain ⟨rfl, rfl⟩ := List.cons.inj his
        obtain ⟨rfl, rfl⟩ := ok.inj hrun
        exact Or.inl ⟨hon, hoff⟩
    | cons first earlier =>
        obtain ⟨rfl, rfl⟩ := List.cons.inj his
        obtain ⟨a', s', hfirst, hrest⟩ := bind_eq_ok.mp hrun
        exact Or.inr ⟨a', s', hfirst, earlier, k, later, b, t, rfl, hrest, hon, hoff⟩
  · rintro (⟨hon, hoff⟩ | ⟨a', s', hfirst, earlier, k, later, b, t, rfl, hrest, hon, hoff⟩)
    · exact ⟨[], i, is, a, s, rfl, rfl, hon, hoff⟩
    · exact ⟨i :: earlier, k, later, b, t, rfl, bind_eq_ok.mpr ⟨a', s', hfirst, hrest⟩, hon, hoff⟩

/-- **What a loop leaves switched on.** -/
theorem forList_switches {P : σ → Prop} {on off : ι → α → σ → Prop} {is : List ι}
    (hbody : ∀ i ∈ is, ∀ a s, P (body i a s).state ↔ on i a s ∨ (P s ∧ ¬ off i a s)) (a : α) (s : σ) :
    P (forList body is a s).state ↔
      LeavesOn body on off is a s ∨ (P s ∧ ∀ i b t, Reaches body is a s i b t → ¬ off i b t) := by
  induction is generalizing a s with
  | nil =>
      have hnone : ∀ i b t, ¬ Reaches body [] a s i b t := by
        rintro i b t ⟨earlier, later, his, -⟩
        exact List.append_ne_nil_of_right_ne_nil earlier (List.cons_ne_nil i later) his.symm
      have hleaves : ¬ LeavesOn body on off [] a s := by
        rintro ⟨earlier, i, later, b, t, his, -⟩
        exact List.append_ne_nil_of_right_ne_nil earlier (List.cons_ne_nil i later) his.symm
      simp [hnone, hleaves]
  | cons i is ih =>
      have hfirst := hbody i List.mem_cons_self a s
      have htail := ih fun j hj => hbody j (List.mem_cons_of_mem i hj)
      have hoff : (∀ j b t, Reaches body (i :: is) a s j b t → ¬ off j b t) ↔ ¬ off i a s ∧
          ∀ a' s', body i a s = ok a' s' → ∀ j b t, Reaches body is a' s' j b t → ¬ off j b t := by
        constructor
        · intro h
          refine ⟨h i a s (reaches_cons.mpr (Or.inl ⟨rfl, rfl, rfl⟩)), ?_⟩
          intro a' s' hpass j b t hreach
          exact h j b t (reaches_cons.mpr (Or.inr ⟨a', s', hpass, hreach⟩))
        · rintro ⟨hhead, hrest⟩ j b t hreach
          rcases reaches_cons.mp hreach with ⟨rfl, rfl, rfl⟩ | ⟨a', s', hpass, hreach⟩
          · exact hhead
          · exact hrest a' s' hpass j b t hreach
      rw [leavesOn_cons, hoff, forList_cons]
      cases hpass : body i a s with
      | ok a' s' =>
          rw [hpass, state_ok] at hfirst
          have hall : ∀ Q : α → σ → Prop, (∀ b t, ok a' s' = ok b t → Q b t) ↔ Q a' s' := by
            intro Q
            refine ⟨fun h => h a' s' rfl, fun h b t heq => ?_⟩
            obtain ⟨rfl, rfl⟩ := ok.inj heq
            exact h
          have hsome : ∀ Q : α → σ → Prop, (∃ b t, ok a' s' = ok b t ∧ Q b t) ↔ Q a' s' := by
            intro Q
            refine ⟨fun ⟨b, t, heq, h⟩ => ?_, fun h => ⟨a', s', rfl, h⟩⟩
            obtain ⟨rfl, rfl⟩ := ok.inj heq
            exact h
          rw [bind_ok, htail, hfirst, hall, hsome]
          generalize (∀ j b t, Reaches body is a' s' j b t → ¬ off j b t) = quiet
          generalize LeavesOn body on off is a' s' = leaves
          tauto
      | crash s' =>
          rw [hpass, state_crash] at hfirst
          rw [bind_crash, state_crash, hfirst]
          simp

/-- A loop whose body is a loop. -/
theorem forList_flatMap {κ : Type*} {inner : κ → α → σ → Exec σ α} {g : ι → List κ}
    (h : ∀ i a s, body i a s = forList inner (g i) a s) (is : List ι) (a : α) (s : σ) :
    forList body is a s = forList inner (is.flatMap g) a s := by
  induction is generalizing a s with
  | nil => rfl
  | cons i is ih =>
      rw [forList_cons, List.flatMap_cons, forList_append, h]
      cases forList inner (g i) a s with
      | ok a' s' => exact ih a' s'
      | crash s' => rfl

/-! ### A bounded `while` loop -/

/-- `while (retries < n)`: a pass that returns `some r` breaks with the result `r`, one that returns
`none` goes round again. Out of passes, the result is the one set before the loop. -/
def retry (body : Nat → σ → Exec σ (Option α)) (dflt : α) : Nat → Nat → σ → Exec σ α
  | 0, _, s => ok dflt s
  | n + 1, i, s => (body i s).bind fun r s' =>
      match r with
      | some r => ok r s'
      | none => retry body dflt n (i + 1) s'

/-- The passes `i, …, j - 1` all go round again and lead from `s` to `t`. -/
inductive Passes (body : Nat → σ → Exec σ (Option α)) : Nat → σ → Nat → σ → Prop where
  | refl (i : Nat) (s : σ) : Passes body i s i s
  | step {i j : Nat} {s s' t : σ} (hbody : body i s = ok none s') (hrest : Passes body (i + 1) s' j t) :
      Passes body i s j t

variable {pass : Nat → σ → Exec σ (Option α)}

/-- How a bounded loop ends: out of passes, broken off by a pass, or crashed in one. -/
inductive RetryEnd (pass : Nat → σ → Exec σ (Option α)) (dflt : α) (last : Nat) (j : Nat) (t : σ) :
    Exec σ α → Prop where
  | exhausted (hj : j = last) : RetryEnd pass dflt last j t (ok dflt t)
  | broke {r : α} {u : σ} (hj : j < last) (hpass : pass j t = ok (some r) u) :
      RetryEnd pass dflt last j t (ok r u)
  | crashed {u : σ} (hj : j < last) (hpass : pass j t = crash u) :
      RetryEnd pass dflt last j t (crash u)

/-- **The shape of a bounded loop**: passes that go round again, then its end. -/
theorem retry_spec (pass : Nat → σ → Exec σ (Option α)) (dflt : α) (n i : Nat) (s : σ) :
    ∃ j t, Passes pass i s j t ∧ RetryEnd pass dflt (i + n) j t (retry pass dflt n i s) := by
  induction n generalizing i s with
  | zero => exact ⟨i, s, .refl i s, .exhausted rfl⟩
  | succ n ih =>
      cases hpass : pass i s with
      | ok r s' =>
          cases r with
          | some r =>
              refine ⟨i, s, .refl i s, ?_⟩
              simp only [retry, hpass, bind_ok]
              exact .broke (by omega) hpass
          | none =>
              obtain ⟨j, t, hpasses, hend⟩ := ih (i + 1) s'
              refine ⟨j, t, .step hpass hpasses, ?_⟩
              simp only [retry, hpass, bind_ok]
              rwa [show i + (n + 1) = i + 1 + n by omega]
      | crash s' =>
          refine ⟨i, s, .refl i s, ?_⟩
          simp only [retry, hpass, bind_crash]
          exact .crashed (by omega) hpass

theorem Passes.le {i j : Nat} {s t : σ} (hpasses : Passes pass i s j t) : i ≤ j := by
  induction hpasses with
  | refl => exact Nat.le_refl _
  | step _ _ ih => omega

theorem Passes.snoc {i j : Nat} {s t u : σ} (hpasses : Passes pass i s j t)
    (hpass : pass j t = ok none u) : Passes pass i s (j + 1) u := by
  induction hpasses with
  | refl => exact .step hpass (.refl _ u)
  | step hbody _ ih => exact .step hbody (ih hpass)

/-- A loop whose first pass breaks makes no other. -/
theorem Passes.eq_of_break {i j : Nat} {s t : σ} {r : α} (hpasses : Passes pass i s j t)
    (hbreak : (pass i s).value? = some (some r)) : j = i ∧ t = s := by
  cases hpasses with
  | refl => exact ⟨rfl, rfl⟩
  | step hbody =>
      rw [hbody] at hbreak
      cases hbreak

/-- A loop breaks in one of its passes only. -/
theorem Passes.unique {i j j' : Nat} {s t t' : σ} {r r' : α} (hpasses : Passes pass i s j t)
    (hbreak : (pass j t).value? = some (some r)) (hpasses' : Passes pass i s j' t')
    (hbreak' : (pass j' t').value? = some (some r')) : j' = j ∧ t' = t := by
  induction hpasses with
  | refl => exact hpasses'.eq_of_break hbreak
  | step hbody hrest ih =>
      cases hpasses' with
      | refl =>
          rw [hbody] at hbreak'
          cases hbreak'
      | step hbody' hrest' =>
          obtain ⟨-, rfl⟩ := Exec.ok.inj (hbody.symm.trans hbody')
          exact ih hbreak hrest'

/-- A loop that reaches a pass goes on from there. -/
theorem Passes.retry_bind {i j n : Nat} {s t : σ} (hpasses : Passes pass i s j t) (dflt : α)
    (hlt : j < i + n) : ∃ m, retry pass dflt n i s = (pass j t).bind fun r s' =>
      match r with
      | some r => ok r s'
      | none => retry pass dflt m (j + 1) s' := by
  induction hpasses generalizing n with
  | refl i s =>
      obtain ⟨n, rfl⟩ : ∃ m, n = m + 1 := Nat.exists_eq_succ_of_ne_zero (by omega)
      exact ⟨n, rfl⟩
  | @step i j s s' t hbody hrest ih =>
      have hle := hrest.le
      obtain ⟨n, rfl⟩ : ∃ m, n = m + 1 := Nat.exists_eq_succ_of_ne_zero (by omega)
      obtain ⟨m, htail⟩ := ih (show j < i + 1 + n by omega)
      refine ⟨m, ?_⟩
      rw [retry, hbody, bind_ok]
      exact htail

/-- A loop that reaches a pass which breaks ends there. -/
theorem Passes.retry_eq {i j n : Nat} {s t u : σ} {r dflt : α} (hpasses : Passes pass i s j t)
    (hlt : j < i + n) (hpass : pass j t = ok (some r) u) : retry pass dflt n i s = ok r u := by
  obtain ⟨m, hrun⟩ := hpasses.retry_bind dflt hlt
  rw [hrun, hpass, bind_ok]

/-- An invariant of the passes that go round again. -/
theorem Passes.inv {P : Nat → σ → Prop} {i j : Nat} {s t : σ} (hpasses : Passes pass i s j t)
    (hstep : ∀ k s s', k < j → P k s → pass k s = ok none s' → P (k + 1) s') (h : P i s) :
    P j t := by
  induction hpasses with
  | refl => exact h
  | step hbody hrest ih => exact ih hstep (hstep _ _ _ hrest.le h hbody)

theorem RetryEnd.le {dflt : α} {last j : Nat} {t : σ} {out : Exec σ α}
    (h : RetryEnd pass dflt last j t out) : j ≤ last := by
  cases h with
  | exhausted hj => exact Nat.le_of_eq hj
  | broke hj => exact Nat.le_of_lt hj
  | crashed hj => exact Nat.le_of_lt hj

end Exec
