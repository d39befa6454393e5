import RfcMgr.VariableFile

/-! The order of the files in which `getRFCParameter` looks before the hostif is ready. A file that holds
the key without a value is passed over like one without the key. -/

namespace RfcMgr.RfcApi

open KeyValueLines

/-- The files a TR-181 name is looked up in, the first one first. -/
def LocalFiles.byPriority (files : LocalFiles) : List (Option Str) :=
  [files.tr181Store, files.bootstrap, files.rfcDefaults.or files.etcDefaults]

/-- The answer of the first file that holds the key. -/
def firstHolding (files : List (Option Str)) (name : Str) : WdmpStatus × Option Str :=
  match files.find? fun file => (lineValue file name).isSome with
  | none => (.failure, none)
  | some file => getValue file name

def priorityAnswer (files : LocalFiles) (name : Str) : WdmpStatus × Option Str :=
  firstHolding files.byPriority name

/-- When the files behind an empty value do not show. -/
structure EmptyRespected (files : LocalFiles) (name : Str) : Prop where
  /-- A name that ends with a dot is not looked up. -/
  wildcard : name.getLast? = some '.' → ∀ file ∈ files.byPriority, lineValue file name = none
  stored : name.getLast? ≠ some '.' → lineValue files.tr181Store name = some [] →
    (lineValue files.bootstrap name).filter (· ≠ []) = none ∧
      lineValue (files.rfcDefaults.or files.etcDefaults) name = some []
  bootstrapped : name.getLast? ≠ some '.' → lineValue files.tr181Store name = none →
    lineValue files.bootstrap name = some [] →
      lineValue (files.rfcDefaults.or files.etcDefaults) name = some []

theorem getValue_eq_empty_iff {file : Option Str} {name : Str} :
    getValue file name = (wdmpErrValueIsEmpty, none) ↔ lineValue file name = some [] := by
  refine ⟨fun h => ?_, getValue_empty⟩
  cases hline : lineValue file name with
  | none => rw [getValue_none hline] at h; simp [wdmpErrValueIsEmpty] at h
  | some value =>
      cases value with
      | nil => rfl
      | cons c value => rw [getValue_found hline] at h; simp [wdmpErrValueIsEmpty] at h

/-- The three lookups of a TR-181 name. -/
theorem getRFCParameter_of_path {files : LocalFiles} {name : Str} (hdot : '.' ∈ name)
    (hlast : name.getLast? ≠ some '.') :
    getRFCParameter files name =
      if (getValue files.tr181Store name).1 = .success then getValue files.tr181Store name
      else if (getValue files.bootstrap name).1 = .success then getValue files.bootstrap name
      else getValue (files.rfcDefaults.or files.etcDefaults) name := by
  rw [getRFCParameter, if_neg hlast, if_neg fun h => h.2 hdot]

/-- A key that no file holds reads as a failure, also from the last one. -/
theorem priorityAnswer_eq (files : LocalFiles) (name : Str) :
    priorityAnswer files name =
      if (lineValue files.tr181Store name).isSome then getValue files.tr181Store name
      else if (lineValue files.bootstrap name).isSome then getValue files.bootstrap name
      else getValue (files.rfcDefaults.or files.etcDefaults) name := by
  rw [priorityAnswer, firstHolding, LocalFiles.byPriority, List.find?_cons, List.find?_cons,
    List.find?_cons]
  cases lineValue files.tr181Store name with
  | some value => rfl
  | none =>
      cases lineValue files.bootstrap name with
      | some value => rfl
      | none =>
          cases hdefaults : lineValue (files.rfcDefaults.or files.etcDefaults) name with
          | some value => rfl
          | none => exact (getValue_none hdefaults).symm

/-- A partial path is refused, whatever the files hold. -/
theorem wildcard_iff {files : LocalFiles} {name : Str} :
    (.failure, none) = priorityAnswer files name ↔
      ∀ file ∈ files.byPriority, lineValue file name = none := by
  rw [priorityAnswer, firstHolding]
  cases hfirst : files.byPriority.find? fun file => (lineValue file name).isSome with
  | none =>
      refine iff_of_true rfl fun file hfile => ?_
      have hnone := List.find?_eq_none.mp hfirst file hfile
      rwa [Option.not_isSome_iff_eq_none] at hnone
  | some file =>
      have hholds : (lineValue file name).isSome = true :=
        List.find?_some (p := fun file => (lineValue file name).isSome) hfirst
      obtain ⟨value, hvalue⟩ := Option.isSome_iff_exists.mp hholds
      refine iff_of_false ?_ fun hnone => ?_
      · cases value with
        | nil => simp [getValue_empty hvalue, wdmpErrValueIsEmpty]
        | cons c value => simp [getValue_found hvalue]
      · rw [hnone file (List.mem_of_find?_eq_some hfirst)] at hvalue
        cases hvalue

/-- **The first file that holds a key answers for it**, unless it holds it without a value and one of
the later ones says something else. -/
theorem getRFCParameter_eq_priorityAnswer_iff (files : LocalFiles) {name : Str} (hdot : '.' ∈ name) :
    getRFCParameter files name = priorityAnswer files name ↔ EmptyRespected files name := by
  by_cases hlast : name.getLast? = some '.'
  · rw [getRFCParameter, if_pos hlast, wildcard_iff]
    exact ⟨fun h => ⟨fun _ => h, fun hnot => absurd hlast hnot, fun hnot => absurd hlast hnot⟩,
      fun h => h.wildcard hlast⟩
  · have hsplit : EmptyRespected files name ↔
        (lineValue files.tr181Store name = some [] →
          (lineValue files.bootstrap name).filter (· ≠ []) = none ∧
            lineValue (files.rfcDefaults.or files.etcDefaults) name = some []) ∧
        (lineValue files.tr181Store name = none → lineValue files.bootstrap name = some [] →
          lineValue (files.rfcDefaults.or files.etcDefaults) name = some []) :=
      ⟨fun h => ⟨h.stored hlast, h.bootstrapped hlast⟩,
        fun h => ⟨fun hdotted => absurd hdotted hlast, fun _ => h.1, fun _ => h.2⟩⟩
    rw [hsplit, getRFCParameter_of_path hdot hlast, priorityAnswer_eq]
    simp only [getValue_success_iff, Option.isSome_map]
    cases hstored : lineValue files.tr181Store name with
    | none =>
        cases hboot : lineValue files.bootstrap name with
        | none => simp
        | some value =>
            cases value with
            | nil => simp [getValue_empty hboot, getValue_eq_empty_iff]
            | cons c value => simp
    | some value =>
        cases value with
        | nil =>
            cases hboot : lineValue files.bootstrap name with
            | none => simp [getValue_empty hstored, getValue_eq_empty_iff]
            | some value =>
                cases value with
                | nil => simp [getValue_empty hstored, getValue_eq_empty_iff]
                | cons c value => simp [getValue_empty hstored, getValue_found hboot, wdmpErrValueIsEmpty]
        | cons c value => simp

/-- The key is overridden in the store, and the defaults have another value. -/
theorem getRFCParameter_overridden :
    let files : LocalFiles :=
      ⟨none, some ['A', '.', 'B', '=', '1', '\n'], none, some ['A', '.', 'B', '=', '2', '\n'], none⟩
    getRFCParameter files ['A', '.', 'B'] = priorityAnswer files ['A', '.', 'B'] := by
  intro files
  refine (getRFCParameter_eq_priorityAnswer_iff files (by decide)).mpr ⟨?_, ?_, ?_⟩
  · exact fun hdotted => absurd hdotted (by decide)
  · exact fun _ hempty => absurd hempty (by decide)
  · exact fun _ hnone => absurd hnone (by decide)

/-- The store overrides the default with the empty value, and the default is returned. -/
theorem getRFCParameter_ne_priorityAnswer :
    let files : LocalFiles :=
      ⟨none, some ['A', '.', 'B', '=', '\n'], none, some ['A', '.', 'B', '=', '2', '\n'], none⟩
    getRFCParameter files ['A', '.', 'B'] = (.success, some ['2']) ∧
      priorityAnswer files ['A', '.', 'B'] = (wdmpErrValueIsEmpty, none) := by
  intro files
  have hstored : lineValue files.tr181Store ['A', '.', 'B'] = some [] := by decide
  have hboot : lineValue files.bootstrap ['A', '.', 'B'] = none := by decide
  have hdefault : lineValue (files.rfcDefaults.or files.etcDefaults) ['A', '.', 'B'] = some ['2'] := by
    decide
  constructor
  · rw [getRFCParameter_of_path (by decide) (by decide), getValue_empty hstored, getValue_none hboot,
      getValue_found hdefault]
    decide
  · rw [priorityAnswer_eq, hstored]
    exact getValue_empty hstored

end RfcMgr.RfcApi
