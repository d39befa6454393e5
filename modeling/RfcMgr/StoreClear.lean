import RfcMgr.StoreFrame

/-! What a clear removes from the local store. The name that ends with a dot is meant as the front of the
names of a domain, but the loop looks for it anywhere in a key. -/

namespace RfcMgr.LocalStore

open Std KeyValueLines LastInsert

/-- The test of the clearing loop; `none` where `value.back()` is taken of an empty string. -/
def clearTest (value key : Str) : Option Bool :=
  if key = value then some true
  else value.getLast?.map fun last => last == '.' && contains key value

/-- The clearing loop, when it takes no `back()` of an empty string. -/
def clearEntriesChecked (order : IterationOrder) (dict : Dict) (value : Str) : Option (Dict × Bool) :=
  (order.list dict.toList).foldlM
    (fun acc entry =>
      (clearTest value entry.1).map fun hit => if hit then (acc.1.erase entry.1, true) else acc)
    (dict, false)

/-- What a clear of `name` is meant to remove. -/
def Named (name key : Str) : Prop := key = name ∨ (name.getLast? = some '.' ∧ name <+: key)

/-- However the map is listed, a clear is defined, and when it succeeds the keys that it names are not
found any more, the others read as before, and the same clear again changes nothing. -/
def ClearsExactly (files : Files) (name : Str) : Prop :=
  ∀ env, env.semOpens = true →
    (clearEntriesChecked env.order (readDict (files tr181LocalStoreFile)) name).isSome ∧
    ((clearLocalParam env files name).1 = .success →
      let after := (clearLocalParam env files name).2
      (∀ key, NulFree key → Named name key →
        getValue (after tr181LocalStoreFile) key = ⟨.failure, none⟩) ∧
      (∀ key, NulFree key → ¬ Named name key →
        getValue (after tr181LocalStoreFile) key = getValue (files tr181LocalStoreFile) key) ∧
      ∀ env', (clearLocalParam env' after name).2 = after)

/-- When a clear removes exactly what it names. -/
structure Clearable (file : Option Str) (name : Str) : Prop where
  /-- An empty name is only compared to empty keys. -/
  defined : name = [] → ∀ key, (storedValue file key).isSome → key = []
  /-- No key holds the name further behind. -/
  named : ∀ key, NulFree key → (storedValue file key).isSome → cleared name key = true → Named name key
  /-- When the file is written again, what stays is printed as another key than the name, and its last
  value reads as its first. -/
  kept : (∃ key, (storedValue file key).isSome ∧ cleared name key = true) →
    ∀ key text, storedValue file key = some text → cleared name key = false →
      cStr key ≠ name ∧ answerOf (some (cStr text)) = getValue file (cStr key)

/-! ### The test -/

theorem cleared_iff {name key : Str} :
    cleared name key = true ↔ key = name ∨ (name.getLast? = some '.' ∧ name <:+: key) := by
  simp [cleared, contains]

theorem Named.cleared {name key : Str} (h : Named name key) : cleared name key = true :=
  cleared_iff.mpr (h.imp id fun hdomain => ⟨hdomain.1, hdomain.2.isInfix⟩)

/-- A longer key still holds the name. -/
theorem cleared_of_front {name front key : Str} (hfront : front <+: key) (hne : front ≠ name)
    (h : cleared name front = true) : cleared name key = true := by
  rcases cleared_iff.mp h with heq | ⟨hdot, hin⟩
  · exact absurd heq hne
  · exact cleared_iff.mpr (Or.inr ⟨hdot, hin.trans hfront.isInfix⟩)

theorem clearTest_eq (name key : Str) :
    clearTest name key = if name = [] ∧ key ≠ [] then none else some (cleared name key) := by
  rw [clearTest]
  by_cases hkey : key = name
  · subst hkey
    have hdefined : ¬ (key = [] ∧ key ≠ []) := fun h => h.2 h.1
    simp [cleared, hdefined]
  · rw [if_neg hkey]
    cases hlast : name.getLast? with
    | none =>
        obtain rfl := List.getLast?_eq_none_iff.mp hlast
        rw [if_pos ⟨rfl, hkey⟩, Option.map_none]
    | some last =>
        have hne : name ≠ [] := by
          rintro rfl
          cases hlast
        rw [if_neg fun h => hne h.1, Option.map_some, cleared, beq_false_of_ne hkey, hlast]
        rfl

theorem clearLoopChecked_eq (name : Str) (entries : List (Str × Str)) (acc : Dict × Bool) :
    entries.foldlM
        (fun acc entry =>
          (clearTest name entry.1).map fun hit => if hit then (acc.1.erase entry.1, true) else acc)
        acc =
      if name = [] ∧ ∃ entry ∈ entries, entry.1 ≠ [] then none
      else some (entries.foldl
        (fun acc entry => if cleared name entry.1 then (acc.1.erase entry.1, true) else acc) acc) := by
  induction entries generalizing acc with
  | nil => simp
  | cons entry entries ih =>
      rw [List.foldlM_cons, List.foldl_cons, clearTest_eq]
      by_cases hstop : name = [] ∧ entry.1 ≠ []
      · rw [if_pos hstop, if_pos ⟨hstop.1, entry, List.mem_cons_self, hstop.2⟩]
        rfl
      · rw [if_neg hstop, Option.map_some, Option.bind_eq_bind, Option.bind_some, ih]
        have hrest : (name = [] ∧ ∃ other ∈ entry :: entries, other.1 ≠ []) ↔
            name = [] ∧ ∃ other ∈ entries, other.1 ≠ [] := by
          simp only [List.mem_cons, exists_eq_or_imp]
          tauto
        simp only [hrest]

/-- The loop is defined unless the name is empty and some key is not. -/
theorem clearEntriesChecked_isSome_iff (order : IterationOrder) (file : Option Str) (name : Str) :
    (clearEntriesChecked order (readDict file) name).isSome ↔
      (name = [] → ∀ key, (storedValue file key).isSome → key = []) := by
  have hentries : (∃ entry ∈ order.list (readDict file).toList, entry.1 ≠ []) ↔
      ∃ key, (storedValue file key).isSome ∧ key ≠ [] := by
    simp only [(order.perm _).mem_iff, Prod.exists, TreeMap.mem_toList_iff_getElem?_eq_some,
      getElem?_readDict, Option.isSome_iff_exists]
    constructor
    · rintro ⟨key, text, htext, hne⟩
      exact ⟨key, ⟨text, htext⟩, hne⟩
    · rintro ⟨key, ⟨text, htext⟩, hne⟩
      exact ⟨key, text, htext, hne⟩
  rw [clearEntriesChecked, clearLoopChecked_eq]
  split
  next hstop =>
    obtain ⟨hname, hentry⟩ := hstop
    obtain ⟨key, hkey, hne⟩ := hentries.mp hentry
    simp only [Option.isSome_none, Bool.false_eq_true, false_iff]
    exact fun h => hne (h hname key hkey)
  next hgo =>
    simp only [Option.isSome_some, true_iff]
    intro hname key hkey
    by_contra hne
    exact hgo ⟨hname, hentries.mpr ⟨key, hkey, hne⟩⟩

/-! ### The map that is written -/

theorem getElem?_clearEntries (order : IterationOrder) (file : Option Str) (name key : Str) :
    (clearEntries order (readDict file) name).1[key]? =
      if cleared name key = true then none else storedValue file key := by
  rw [(clearEntries_spec order (readDict file) name).1 key, getElem?_readDict]

theorem found_iff (order : IterationOrder) (file : Option Str) (name : Str) :
    (clearEntries order (readDict file) name).2 = true ↔
      ∃ key, (storedValue file key).isSome ∧ cleared name key = true := by
  rw [(clearEntries_spec order (readDict file) name).2]
  simp only [TreeMap.mem_iff_isSome_getElem?, getElem?_readDict]

/-- What a get says to the written map, in every order: that of the keys that stay and are printed as
its key. -/
theorem cleared_reads_iff {file : Option Str} {name : Str} {dict : Dict}
    (hdict : ∀ key, dict[key]? = if cleared name key = true then none else storedValue file key)
    (key : Str) (answer : Answer) :
    (∀ order, getValue (some (printDict order dict)) key = answer) ↔
      (∀ other text, storedValue file other = some text → cleared name other = false →
        cStr other = key → answerOf (some (cStr text)) = answer) ∧
      ((∀ other text, storedValue file other = some text → cleared name other = false →
        cStr other ≠ key) → answerOf none = answer) := by
  have hmem : ∀ other text, dict[other]? = some text ↔
      storedValue file other = some text ∧ cleared name other = false := by
    intro other text
    rw [hdict, Option.ite_none_left_eq_some, Bool.not_eq_true, and_comm]
  rw [printed_reads_iff]
  simp only [hmem]
  have hline : ∀ other text, storedValue file other = some text →
      (reread (cEntry (other, text))).lookup key = if key = cStr other then some (cStr text) else none := by
    intro other text hstored
    rw [reread_of_storedValue hstored, List.lookup_singleton]
    simp only [beq_iff_eq]
  refine and_congr ?_ (imp_congr_left ?_)
  · constructor
    · rintro h other text hstored hkept rfl
      refine h other text ⟨hstored, hkept⟩ (cStr text) ?_
      rw [hline other text hstored, if_pos rfl]
    · rintro h other text ⟨hstored, hkept⟩ read hread
      rw [hline other text hstored, Option.ite_none_right_eq_some] at hread
      obtain ⟨hkey, hread⟩ := hread
      obtain rfl := Option.some.inj hread
      exact h other text hstored hkept hkey.symm
  · constructor
    · intro h other text hstored hkept hkey
      have hnone := h other text ⟨hstored, hkept⟩
      rw [hline other text hstored, if_pos hkey.symm] at hnone
      cases hnone
    · rintro h other text ⟨hstored, hkept⟩
      rw [hline other text hstored, if_neg fun hkey => h other text hstored hkept hkey.symm]

/-- A key of a written map is the print of one that stayed. -/
theorem storedValue_printDict {order : IterationOrder} {file : Option Str} {dict : Dict}
    (hdict : ∀ key text, dict[key]? = some text → storedValue file key = some text) {key : Str}
    (h : (storedValue (some (printDict order dict)) key).isSome) :
    ∃ other, (dict[other]?).isSome ∧ key = cStr other := by
  obtain ⟨text, htext⟩ := Option.isSome_iff_exists.mp h
  have hmem := lastValue_mem htext
  rw [Option.getD_some, printDict, entriesOf_printLines_eq_flatMap, List.flatMap_map,
    List.mem_flatMap] at hmem
  obtain ⟨⟨other, value⟩, hentry, hread⟩ := hmem
  have hother := TreeMap.mem_toList_iff_getElem?_eq_some.mp ((order.perm _).mem_iff.mp hentry)
  rw [reread_of_storedValue (hdict other value hother), List.mem_singleton] at hread
  exact ⟨other, Option.isSome_iff_exists.mpr ⟨value, hother⟩, (Prod.mk.inj hread).1⟩

/-! ### One clear -/

/-- The map without what the clear takes out; its tree may depend on the order, its print does not. -/
def clearedDict (file : Option Str) (name : Str) : Dict := (clearEntries .same (readDict file) name).1

theorem printDict_clearEntries (order : IterationOrder) (file : Option Str) (name : Str) :
    printDict order (clearEntries order (readDict file) name).1 =
      printDict order (clearedDict file name) := by
  have hequiv : (clearEntries order (readDict file) name).1.Equiv (clearedDict file name) :=
    .of_forall_constGet?_eq fun key => by
      rw [clearedDict, getElem?_clearEntries, getElem?_clearEntries]
  rw [printDict, printDict, hequiv.toList_eq]

/-- The file has a key that the loop takes out. -/
def Hits (file : Option Str) (name : Str) : Prop :=
  ∃ key, (storedValue file key).isSome ∧ cleared name key = true

theorem clearLocalParam_of_not_hits {files : Files} {name : Str}
    (h : ¬ Hits (files tr181LocalStoreFile) name) (env : Access) :
    (clearLocalParam env files name).2 = files := by
  rw [clearLocalParam]
  split
  · have hfound : ¬ (clearEntries env.order (readDict (files tr181LocalStoreFile)) name).2 = true :=
      fun hfound => h ((found_iff ..).mp hfound)
    simp [setValue, writeBack, hfound, storeWritten]
  · rfl

theorem clearLocalParam_of_hits {files : Files} {name : Str}
    (h : Hits (files tr181LocalStoreFile) name) {env : Access} (hsem : env.semOpens = true) :
    clearLocalParam env files name =
      if env.storeOpens then
        (.success, Function.update files tr181LocalStoreFile
          (some (printDict env.order (clearedDict (files tr181LocalStoreFile) name))))
      else (.failure, files) := by
  have hfound := (found_iff env.order _ _).mpr h
  rw [clearLocalParam, if_pos hsem, ← printDict_clearEntries]
  cases hstore : env.storeOpens with
  | true => simp [setValue, writeBack, hfound, hstore, storeWritten]
  | false => simp [setValue, writeBack, hfound, hstore, storeWritten]

theorem getElem?_clearedDict (file : Option Str) (name key : Str) :
    (clearedDict file name)[key]? = if cleared name key = true then none else storedValue file key :=
  getElem?_clearEntries .same file name key

/-- A key that the file has a value for is found. -/
theorem getValue_ne_failure {file : Option Str} {key : Str} (h : (storedValue file key).isSome) :
    getValue file key ≠ answerOf none := by
  obtain ⟨text, htext⟩ := Option.isSome_iff_exists.mp (lastValue_isSome_iff.mp h)
  rw [getValue_eq, htext]
  cases text with
  | nil => simp [answerOf]
  | cons c text => simp [answerOf]

theorem nulFree_cStr (s : Str) : NulFree (cStr s) := fun hmem => by
  simpa using List.mem_takeWhile_imp hmem

/-- After a clear that wrote, the key in the place of `key` reads as asked in every order. -/
theorem ClearsExactly.reads {files : Files} {name : Str} (h : ClearsExactly files name)
    (hhits : Hits (files tr181LocalStoreFile) name) (order : IterationOrder) :
    let after := some (printDict order (clearedDict (files tr181LocalStoreFile) name))
    (∀ key, NulFree key → Named name key → getValue after key = answerOf none) ∧
      ∀ key, NulFree key → ¬ Named name key →
        getValue after key = getValue (files tr181LocalStoreFile) key := by
  obtain ⟨-, hafter⟩ := h ⟨true, true, order⟩ rfl
  rw [clearLocalParam_of_hits hhits rfl, if_pos rfl] at hafter
  obtain ⟨hnamed, hothers, -⟩ := hafter rfl
  simp only [Function.update_self] at hnamed hothers
  exact ⟨hnamed, hothers⟩

theorem ClearsExactly.clearable {files : Files} {name : Str} (h : ClearsExactly files name) :
    Clearable (files tr181LocalStoreFile) name := by
  refine ⟨?_, ?_, ?_⟩
  · exact (clearEntriesChecked_isSome_iff ..).mp (h ⟨true, true, .same⟩ rfl).1
  · intro key hkey hstored hcleared
    by_contra hnot
    have hsame := (cleared_reads_iff (getElem?_clearedDict _ name) key _).mp fun order =>
      (h.reads ⟨key, hstored, hcleared⟩ order).2 key hkey hnot
    refine getValue_ne_failure hstored (hsame.2 ?_).symm
    rintro other text - hkept rfl
    have hne : cStr other ≠ name := fun heq => hnot (Or.inl heq)
    have hother := cleared_of_front (List.takeWhile_prefix _) hne hcleared
    exact Bool.false_ne_true (hkept.symm.trans hother)
  · intro hhits key text hstored hkept
    have hne : cStr key ≠ name := by
      rintro rfl
      have hgone := (cleared_reads_iff (getElem?_clearedDict _ (cStr key)) (cStr key) _).mp
        fun order => (h.reads hhits order).1 (cStr key) (nulFree_cStr key) (Or.inl rfl)
      have hanswer := hgone.1 key text hstored hkept rfl
      cases hprinted : cStr text with
      | nil => rw [hprinted] at hanswer; cases hanswer
      | cons c rest => rw [hprinted] at hanswer; cases hanswer
    refine ⟨hne, ?_⟩
    have hnot : ¬ Named name (cStr key) := fun hnamed =>
      Bool.false_ne_true (hkept.symm.trans
        (cleared_of_front (List.takeWhile_prefix _) hne hnamed.cleared))
    exact ((cleared_reads_iff (getElem?_clearedDict _ name) (cStr key) _).mp fun order =>
      (h.reads hhits order).2 (cStr key) (nulFree_cStr key) hnot).1 key text hstored hkept rfl

/-- What the written file holds is not taken out again. -/
theorem Clearable.not_hits_again {file : Option Str} {name : Str} (h : Clearable file name)
    (hhits : Hits file name) (order : IterationOrder) :
    ¬ Hits (some (printDict order (clearedDict file name))) name := by
  rintro ⟨key, hstored, hcleared⟩
  have hdict : ∀ other text, (clearedDict file name)[other]? = some text →
      storedValue file other = some text := fun other text htext => by
    rw [getElem?_clearedDict, Option.ite_none_left_eq_some] at htext
    exact htext.2
  obtain ⟨other, hother, rfl⟩ := storedValue_printDict hdict hstored
  rw [getElem?_clearedDict] at hother
  cases hkept : cleared name other with
  | true => rw [hkept] at hother; cases hother
  | false =>
      rw [hkept] at hother
      obtain ⟨text, htext⟩ := Option.isSome_iff_exists.mp hother
      have hne := (h.kept hhits other text htext hkept).1
      have hagain := cleared_of_front (List.takeWhile_prefix _) hne hcleared
      exact Bool.false_ne_true (hkept.symm.trans hagain)

theorem Clearable.reads {file : Option Str} {name : Str} (h : Clearable file name)
    (hhits : Hits file name) (order : IterationOrder) {key : Str} (hkey : NulFree key) :
    (Named name key → getValue (some (printDict order (clearedDict file name))) key = answerOf none) ∧
      (¬ Named name key →
        getValue (some (printDict order (clearedDict file name))) key = getValue file key) := by
  constructor
  · intro hnamed
    refine (cleared_reads_iff (getElem?_clearedDict _ name) key _).mpr ⟨?_, fun _ => rfl⟩ order
    rintro other text hstored hkept rfl
    have hne := (h.kept hhits other text hstored hkept).1
    have hother := cleared_of_front (List.takeWhile_prefix _) hne hnamed.cleared
    exact absurd (hkept.symm.trans hother) Bool.false_ne_true
  · intro hnot
    refine (cleared_reads_iff (getElem?_clearedDict _ name) key _).mpr ⟨?_, ?_⟩ order
    · rintro other text hstored hkept rfl
      exact (h.kept hhits other text hstored hkept).2
    · intro hnone
      cases hstored : storedValue file key with
      | none => exact (getValue_of_storedValue_none hstored).symm
      | some text =>
          cases hkept : cleared name key with
          | true => exact absurd (h.named key hkey (Option.isSome_iff_exists.mpr ⟨text, hstored⟩) hkept) hnot
          | false => exact absurd hkey.cStr_eq (hnone key text hstored hkept)

/-- **A clear removes exactly what it names** when no key holds the name further behind, an empty name
meets no other key, and what is printed again reads as before. -/
theorem clearsExactly_iff (files : Files) (name : Str) :
    ClearsExactly files name ↔ Clearable (files tr181LocalStoreFile) name := by
  refine ⟨ClearsExactly.clearable, fun h env hsem => ⟨?_, fun hsuccess => ?_⟩⟩
  · exact (clearEntriesChecked_isSome_iff ..).mpr h.defined
  · by_cases hhits : Hits (files tr181LocalStoreFile) name
    · rw [clearLocalParam_of_hits hhits hsem] at hsuccess ⊢
      split at hsuccess
      next hstore =>
        rw [if_pos hstore]
        simp only [Function.update_self]
        refine ⟨fun key hkey => (h.reads hhits env.order hkey).1,
          fun key hkey => (h.reads hhits env.order hkey).2, fun env' => ?_⟩
        apply clearLocalParam_of_not_hits
        rw [Function.update_self]
        exact h.not_hits_again hhits env.order
      next => cases hsuccess
    · simp only [clearLocalParam_of_not_hits hhits]
      refine ⟨fun key _ hnamed => ?_, fun _ _ _ => trivial, fun _ => trivial⟩
      cases hstored : storedValue (files tr181LocalStoreFile) key with
      | none => exact getValue_of_storedValue_none hstored
      | some text =>
          exact absurd ⟨key, Option.isSome_iff_exists.mpr ⟨text, hstored⟩, hnamed.cleared⟩ hhits

/-- A key that holds the name in the middle is removed with it. -/
theorem not_clearsExactly :
    ¬ ClearsExactly (fun _ => some ['X', '.', 'A', '.', 'B', '=', '1', '\n']) ['A', '.'] := by
  intro h
  have hnamed := h.clearable.named ['X', '.', 'A', '.', 'B'] (by decide) (by decide) (by decide)
  rcases hnamed with heq | ⟨-, hfront⟩
  · exact absurd heq (by decide)
  · exact absurd hfront (by decide)

end RfcMgr.LocalStore
