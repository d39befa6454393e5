import Mathlib.Data.List.Infix
import Mathlib.Data.List.Basic

/-! The string helpers of rfc_common.cpp. A C string is the list of its bytes, one `Char` a byte. -/

namespace RfcMgr

abbrev Str := List Char

/-- Literals that differ have different bytes. -/
theorem toList_ne {s t : String} (h : s ≠ t) : s.toList ≠ t.toList :=
  fun heq => h (String.toList_inj.mp heq)

/-- `std::isalnum` in the C locale. -/
def checkSpecialCharacters (str : Str) : Bool := str.any fun c => !c.isAlphanum

def stringCaseCompare (str1 str2 : Str) : Bool := str1.map Char.toLower == str2.map Char.toLower

/-- `str.find(target) != npos`. -/
def contains (str target : Str) : Bool := decide (target <:+: str)

theorem contains_toList (front back : String) {s t : String} (h : front ++ t ++ back = s) :
    contains s.toList t.toList = true := by
  refine decide_eq_true ⟨front.toList, back.toList, ?_⟩
  rw [← String.toList_append, ← String.toList_append, h]

theorem contains_self (str : Str) : contains str str = true := decide_eq_true List.infix_rfl

/-- The loop of `RemoveSubstring`: erase the first occurrence until there is none. -/
def removeSubstringLoop (toRemove : Str) : Nat → Str → Str
  | 0, str => str
  | fuel + 1, str =>
      match str.dropInfix? toRemove with
      | none => str
      | some (front, back) => removeSubstringLoop toRemove fuel (front ++ back)

/-- Every pass shortens the string, so its length bounds the passes. -/
def removeSubstring (str toRemove : Str) : Str := removeSubstringLoop toRemove str.length str

theorem length_of_dropInfix? {str toRemove front back : Str}
    (h : str.dropInfix? toRemove = some (front, back)) :
    str.length = front.length + toRemove.length + back.length := by
  obtain ⟨⟨i', rfl, hi⟩, -⟩ := List.dropInfix?_eq_some_iff.mp h
  rw [eq_of_beq hi, List.length_append, List.length_append]

theorem removeSubstringLoop_nil {toRemove : Str} (hne : toRemove ≠ []) (fuel : Nat) :
    removeSubstringLoop toRemove fuel [] = [] := by
  cases fuel with
  | zero => rfl
  | succ fuel =>
      simp only [removeSubstringLoop]
      split
      · rfl
      next front back hdrop =>
        have hlen := length_of_dropInfix? hdrop
        have hpos : 0 < toRemove.length := List.length_pos_of_ne_nil hne
        simp only [List.length_nil] at hlen
        omega

/-- Fuel beyond the length of the string changes nothing. -/
theorem removeSubstringLoop_eq_of_le {toRemove : Str} (hne : toRemove ≠ []) {fuel fuel' : Nat}
    {str : Str} (h : str.length ≤ fuel) (h' : str.length ≤ fuel') :
    removeSubstringLoop toRemove fuel str = removeSubstringLoop toRemove fuel' str := by
  have hpos : 0 < toRemove.length := List.length_pos_of_ne_nil hne
  induction fuel generalizing str fuel' with
  | zero =>
      obtain rfl : str = [] := List.length_eq_zero_iff.mp (by omega)
      rw [removeSubstringLoop_nil hne, removeSubstringLoop_nil hne]
  | succ fuel ih =>
      cases fuel' with
      | zero =>
          obtain rfl : str = [] := List.length_eq_zero_iff.mp (by omega)
          rw [removeSubstringLoop_nil hne, removeSubstringLoop_nil hne]
      | succ fuel' =>
          simp only [removeSubstringLoop]
          split
          · rfl
          next front back hdrop =>
            have hlen := length_of_dropInfix? hdrop
            have hback : (front ++ back).length ≤ fuel ∧ (front ++ back).length ≤ fuel' := by
              rw [List.length_append]
              omega
            exact ih hback.1 hback.2

/-- One pass of the `while` loop. -/
theorem removeSubstring_eq {str toRemove : Str} (hne : toRemove ≠ []) :
    removeSubstring str toRemove =
      match str.dropInfix? toRemove with
      | none => str
      | some (front, back) => removeSubstring (front ++ back) toRemove := by
  have hmore : removeSubstring str toRemove = removeSubstringLoop toRemove (str.length + 1) str :=
    removeSubstringLoop_eq_of_le hne le_rfl (by omega)
  rw [hmore, removeSubstringLoop]
  split
  · rfl
  next front back hdrop =>
    have hlen := length_of_dropInfix? hdrop
    refine removeSubstringLoop_eq_of_le hne ?_ le_rfl
    rw [List.length_append]
    omega

theorem dropInfix?_go_eq_none {toRemove str acc : Str}
    (h : List.dropInfix?.go toRemove str acc = none) : ¬ toRemove <:+: str := by
  induction str generalizing acc with
  | nil =>
      intro hinfix
      simp [List.dropInfix?.go, List.infix_nil.mp hinfix] at h
  | cons c str ih =>
      rw [List.dropInfix?.go] at h
      cases hdrop : (c :: str).dropPrefix? toRemove with
      | some back => simp [hdrop] at h
      | none =>
          rw [hdrop] at h
          rw [List.infix_cons_iff]
          rintro (⟨back, hprefix⟩ | hinfix)
          · rw [← hprefix, List.dropPrefix?_append_of_beq _ (beq_self_eq_true toRemove)] at hdrop
            cases hdrop
          · exact ih h hinfix

/-- `str.find`: the first of all occurrences. -/
theorem dropInfix?_eq_some {str toRemove front back : Str} :
    str.dropInfix? toRemove = some (front, back) ↔ str = front ++ toRemove ++ back ∧
      ∀ front' back', str = front' ++ toRemove ++ back' → front.length ≤ front'.length := by
  rw [List.dropInfix?_eq_some_iff]
  constructor
  · rintro ⟨⟨i', hstr, hi⟩, hfirst⟩
    rw [eq_of_beq hi] at hstr
    exact ⟨hstr, fun front' back' h => hfirst front' toRemove back' h (beq_self_eq_true _)⟩
  · rintro ⟨hstr, hfirst⟩
    refine ⟨⟨toRemove, hstr, beq_self_eq_true _⟩, ?_⟩
    intro front' i' back' h hi
    rw [eq_of_beq hi] at h
    exact hfirst front' back' h

/-- The `while` loop, started on a string, ends and leaves `result`. -/
inductive LoopEnds (toRemove : Str) : Str → Str → Prop where
  | done {str : Str} (hfind : str.dropInfix? toRemove = none) : LoopEnds toRemove str str
  | turn {str front back result : Str} (hfind : str.dropInfix? toRemove = some (front, back))
      (hrest : LoopEnds toRemove (front ++ back) result) : LoopEnds toRemove str result

theorem loopEnds_removeSubstring {toRemove : Str} (hne : toRemove ≠ []) (str : Str) :
    LoopEnds toRemove str (removeSubstring str toRemove) := by
  induction hlen : str.length using Nat.strong_induction_on generalizing str with
  | h n ih =>
      rw [removeSubstring_eq hne]
      cases hfind : str.dropInfix? toRemove with
      | none => exact .done hfind
      | some pieces =>
          obtain ⟨front, back⟩ := pieces
          have hshorter := length_of_dropInfix? hfind
          have hpos : 0 < toRemove.length := List.length_pos_of_ne_nil hne
          have hless : (front ++ back).length < n := by
            rw [List.length_append]
            omega
          exact .turn hfind (ih _ hless _ rfl)

/-- The loop leaves one result. -/
theorem LoopEnds.eq {toRemove str result : Str} (hne : toRemove ≠ [])
    (h : LoopEnds toRemove str result) : removeSubstring str toRemove = result := by
  induction h with
  | done hfind => rw [removeSubstring_eq hne, hfind]
  | turn hfind _ ih =>
      rw [removeSubstring_eq hne, hfind]
      exact ih

/-- Occurrences that form when others are erased are erased too: the last search was over the result. -/
theorem LoopEnds.no_occurrence {toRemove str result : Str} (h : LoopEnds toRemove str result) :
    ¬ toRemove <:+: result := by
  induction h with
  | done hfind => exact dropInfix?_go_eq_none hfind
  | turn _ _ ih => exact ih

/-- Every turn takes the length of the pattern away. -/
theorem LoopEnds.exists_length {toRemove str result : Str} (h : LoopEnds toRemove str result) :
    ∃ turns, str.length = result.length + turns * toRemove.length := by
  induction h with
  | done hfind => exact ⟨0, by omega⟩
  | turn hfind _ ih =>
      obtain ⟨turns, hturns⟩ := ih
      have hshorter := length_of_dropInfix? hfind
      rw [List.length_append] at hturns
      exact ⟨turns + 1, by rw [Nat.succ_mul]; omega⟩

theorem removeSubstring_of_not_infix {str toRemove : Str} (hne : toRemove ≠ [])
    (h : ¬ toRemove <:+: str) : removeSubstring str toRemove = str := by
  rw [removeSubstring_eq hne]
  split
  · rfl
  next front back hdrop =>
    obtain ⟨⟨i', hstr, hi⟩, -⟩ := List.dropInfix?_eq_some_iff.mp hdrop
    exact absurd ⟨front, back, by rw [hstr, eq_of_beq hi]⟩ h

/-- The first occurrence is the one in front. -/
theorem removeSubstring_append {toRemove : Str} (hne : toRemove ≠ []) (rest : Str) :
    removeSubstring (toRemove ++ rest) toRemove = removeSubstring rest toRemove := by
  have hdrop : (toRemove ++ rest).dropInfix? toRemove = some ([], rest) :=
    List.dropInfix?_eq_some_iff.mpr
      ⟨⟨toRemove, rfl, beq_self_eq_true _⟩, fun _ _ _ _ _ => Nat.zero_le _⟩
  rw [removeSubstring_eq hne, hdrop]
  rfl

theorem removeSubstring_eq_self_iff {toRemove : Str} (hne : toRemove ≠ []) {str : Str} :
    removeSubstring str toRemove = str ↔ ¬ toRemove <:+: str :=
  ⟨fun h => h ▸ (loopEnds_removeSubstring hne str).no_occurrence, removeSubstring_of_not_infix hne⟩

/-- **The normal form**: the loop ends, whatever the string, and leaves one that has no occurrence and is
shorter by as many patterns as there were turns. -/
theorem removeSubstring_normalForm {toRemove : Str} (hne : toRemove ≠ []) (str : Str) :
    (∀ result, LoopEnds toRemove str result ↔ result = removeSubstring str toRemove) ∧
      ¬ toRemove <:+: removeSubstring str toRemove ∧
      (∃ turns, str.length = (removeSubstring str toRemove).length + turns * toRemove.length) ∧
      removeSubstring (removeSubstring str toRemove) toRemove = removeSubstring str toRemove := by
  have hends := loopEnds_removeSubstring hne str
  refine ⟨fun result => ⟨fun h => (h.eq hne).symm, fun h => h ▸ hends⟩, hends.no_occurrence,
    hends.exists_length, ?_⟩
  exact removeSubstring_of_not_infix hne hends.no_occurrence

/-- One occurrence inside another: erasing it lets the other one form. -/
theorem removeSubstring_normalForm_nested :
    LoopEnds "tr181.".toList "tr1tr181.81.X".toList "X".toList := by
  have hresult : "X".toList = removeSubstring "tr1tr181.81.X".toList "tr181.".toList := by decide
  exact ((removeSubstring_normalForm (by simp) _).1 _).mpr hresult

end RfcMgr
