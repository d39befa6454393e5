import Std.Data.TreeMap.Lemmas
import Mathlib.Data.List.Basic

/-! A list of entries inserted into an ordered map one after the other: the last entry of a key wins. -/

namespace LastInsert

open Std

variable {κ ν : Type*}

section LastValue

variable [BEq κ]

/-- The last value of a key in a list of entries. -/
def lastValue (es : List (κ × ν)) (k : κ) : Option ν := es.reverse.lookup k

@[simp] theorem lastValue_nil (k : κ) : lastValue ([] : List (κ × ν)) k = none := rfl

/-- The entries of the later list hide those of the earlier one. -/
theorem lastValue_append (es fs : List (κ × ν)) (k : κ) :
    lastValue (es ++ fs) k = (lastValue fs k).or (lastValue es k) := by
  rw [lastValue, List.reverse_append, List.lookup_append]
  rfl

theorem lastValue_mem [LawfulBEq κ] {es : List (κ × ν)} {k : κ} {v : ν}
    (h : lastValue es k = some v) : (k, v) ∈ es := by
  obtain ⟨l, r, hl, -⟩ := List.lookup_eq_some_iff.mp h
  rw [← List.mem_reverse, hl]
  simp

theorem lastValue_eq_none_iff [LawfulBEq κ] {es : List (κ × ν)} {k : κ} :
    lastValue es k = none ↔ ∀ v, (k, v) ∉ es := by
  rw [lastValue, List.lookup_eq_none_iff]
  constructor
  · intro h v hv
    have hne := h (k, v) (List.mem_reverse.mpr hv)
    simp at hne
  · rintro h ⟨k', v⟩ hv
    rw [bne_iff_ne]
    rintro rfl
    exact h v (List.mem_reverse.mp hv)

end LastValue

section UpdateAll

variable [DecidableEq κ]

/-- The entries written one after the other into a partial function. -/
def updateAll (f : κ → Option ν) (es : List (κ × ν)) : κ → Option ν :=
  es.foldl (fun f e => Function.update f e.1 (some e.2)) f

theorem updateAll_apply (f : κ → Option ν) (es : List (κ × ν)) (k : κ) :
    updateAll f es k = (lastValue es k).or (f k) := by
  induction es generalizing f with
  | nil => rfl
  | cons e es ih =>
      obtain ⟨key, value⟩ := e
      have hone : Function.update f key (some value) k = (lastValue [(key, value)] k).or (f k) := by
        by_cases hk : k = key
        · subst hk
          simp [lastValue]
        · simp [lastValue, List.lookup_cons, Function.update_of_ne hk, beq_false_of_ne hk]
      calc updateAll f ((key, value) :: es) k
          = updateAll (Function.update f key (some value)) es k := rfl
        _ = (lastValue es k).or ((lastValue [(key, value)] k).or (f k)) := by rw [ih, hone]
        _ = (lastValue ([(key, value)] ++ es) k).or (f k) := by rw [lastValue_append, Option.or_assoc]

theorem updateAll_of_not_mem {f : κ → Option ν} {es : List (κ × ν)} {k : κ} (h : ∀ v, (k, v) ∉ es) :
    updateAll f es k = f k := by
  rw [updateAll_apply, lastValue_eq_none_iff.mpr h, Option.none_or]

/-- Every entry is found as it was written just when those of one key agree. -/
theorem forall_updateAll_iff (f : κ → Option ν) (es : List (κ × ν)) :
    (∀ e ∈ es, updateAll f es e.1 = some e.2) ↔ ∀ e ∈ es, ∀ e' ∈ es, e.1 = e'.1 → e.2 = e'.2 := by
  constructor
  · intro h e he e' he' hkey
    have heq := h e he
    rw [hkey, h e' he'] at heq
    exact (Option.some.inj heq).symm
  · intro h e he
    rw [updateAll_apply]
    cases hlast : lastValue es e.1 with
    | none => exact absurd he (lastValue_eq_none_iff.mp hlast e.2)
    | some value =>
        rw [Option.some_or, h e he (e.1, value) (lastValue_mem hlast) rfl]

end UpdateAll

variable [Ord κ]

def insertAll (m : TreeMap κ ν) (es : List (κ × ν)) : TreeMap κ ν :=
  es.foldl (fun m e => m.insert e.1 e.2) m

theorem insertAll_append (m : TreeMap κ ν) (es fs : List (κ × ν)) :
    insertAll m (es ++ fs) = insertAll (insertAll m es) fs := List.foldl_append

variable [TransOrd κ] [LawfulEqOrd κ] [BEq κ] [LawfulBEq κ]

theorem getElem?_insertAll (m : TreeMap κ ν) (es : List (κ × ν)) (k : κ) :
    (insertAll m es)[k]? = (lastValue es k).or m[k]? := by
  induction es generalizing m with
  | nil => rfl
  | cons e es ih =>
      obtain ⟨key, value⟩ := e
      have hone : (m.insert key value)[k]? = (lastValue [(key, value)] k).or m[k]? := by
        rw [TreeMap.getElem?_insert]
        by_cases hk : k = key
        · subst hk
          simp [lastValue]
        · have hbeq : (k == key) = false := beq_eq_false_iff_ne.mpr hk
          simp [lastValue, List.lookup_cons, hbeq, Ne.symm hk]
      calc (insertAll m ((key, value) :: es))[k]?
          = (insertAll (m.insert key value) es)[k]? := rfl
        _ = (lastValue es k).or ((lastValue [(key, value)] k).or m[k]?) := by rw [ih, hone]
        _ = (lastValue ([(key, value)] ++ es) k).or m[k]? := by rw [lastValue_append, Option.or_assoc]

theorem getElem?_insertAll_empty (es : List (κ × ν)) (k : κ) :
    (insertAll ∅ es)[k]? = lastValue es k := by
  rw [getElem?_insertAll, TreeMap.getElem?_emptyc, Option.or_none]

/-- The map of a list of entries is empty only when the list is. -/
theorem isEmpty_insertAll_empty {es : List (κ × ν)} : (insertAll ∅ es).isEmpty ↔ es = [] := by
  constructor
  · intro h
    rcases List.eq_nil_or_concat es with rfl | ⟨es', ⟨key, value⟩, rfl⟩
    · rfl
    · have hlast : (insertAll ∅ (es' ++ [(key, value)]))[key]? = some value := by
        rw [getElem?_insertAll_empty, lastValue_append]
        simp [lastValue]
      rw [List.concat_eq_append, TreeMap.getElem?_of_isEmpty h] at *
      cases hlast
  · rintro rfl
    rfl

end LastInsert
