import RfcMgr.LocalStore

/-! What a set of one parameter does to the others in the local store. A get takes the first line of a
key and a set the last, and whatever was read is printed again, so a set may change what other keys
read. -/

namespace RfcMgr.LocalStore

open Std KeyValueLines LastInsert

/-- A C string, as far as it matters here. -/
def NulFree (s : Str) : Prop := Char.ofNat 0 ∉ s

instance (s : Str) : Decidable (NulFree s) := inferInstanceAs (Decidable (Char.ofNat 0 ∉ s))

/-- The answer to a get whose first line has that value. -/
def answerOf (value : Option Str) : Answer :=
  match value with
  | none => ⟨.failure, none⟩
  | some [] => ⟨.valueIsEmpty, none⟩
  | some value => ⟨.success, some ((cStr value).take (maxParamLen - 1))⟩

/-- The last value the file has for a key. -/
def storedValue (file : Option Str) (key : Str) : Option Str :=
  lastValue (entriesOf (file.getD [])) key

/-- However the map is listed, a set that succeeds leaves what the other keys read, and its own key
reads the value. -/
def TouchesOnly (files : Files) (key value : Str) : Prop :=
  ∀ env, (setLocalParam env files key value).1 = .success →
    let after := (setLocalParam env files key value).2 tr181LocalStoreFile
    (∀ other, NulFree other → other ≠ key →
      getValue after other = getValue (files tr181LocalStoreFile) other) ∧
    (value ≠ [] → getValue after key = ⟨.success, some (value.take (maxParamLen - 1))⟩)

/-- When a set touches only its key. -/
structure Framed (file : Option Str) (key value : Str) : Prop where
  /-- What is kept of another key, its last value, reads as its first. -/
  kept : ∀ other text, other ≠ key → storedValue file other = some text → cStr other ≠ key →
    answerOf (some (cStr text)) = getValue file (cStr other)
  /-- What the own line is read as says nothing new of other keys. -/
  added : ∀ other text, NulFree other → other ≠ key → (reread (key, value)).lookup other = some text →
    answerOf (some text) = getValue file other
  /-- The own line gives the key and the value back, as far as they are read. -/
  read : value ≠ [] → '=' ∉ key ∧ '\n' ∉ key ∧ '\n' ∉ value.take (maxParamLen - 1)
  /-- No other key that is printed like the own one says otherwise. -/
  alone : value ≠ [] → ∀ other text, other ≠ key → storedValue file other = some text →
    cStr other = key → answerOf (some (cStr text)) = ⟨.success, some (value.take (maxParamLen - 1))⟩

/-! ### Reading a file -/

theorem getValue_eq (file : Option Str) (key : Str) :
    getValue file key = answerOf ((entriesOf (file.getD [])).lookup key) := by
  cases file with
  | none => rfl
  | some text => rfl

theorem getElem?_readDict (file : Option Str) (key : Str) :
    (readDict file)[key]? = storedValue file key :=
  getElem?_insertAll_empty _ _

theorem plain_of_storedValue {file : Option Str} {key text : Str}
    (h : storedValue file key = some text) : Plain (key, text) :=
  .of_mem_entriesOf (lastValue_mem h)

/-- The line that is printed for an entry of the file is read as that entry, up to its NULs. -/
theorem reread_of_storedValue {file : Option Str} {key text : Str}
    (h : storedValue file key = some text) : reread (cEntry (key, text)) = [(cStr key, cStr text)] :=
  reread_plain (plain_of_storedValue h).cEntry

/-- A key that the file has no value for reads as a failure. -/
theorem getValue_of_storedValue_none {file : Option Str} {key : Str}
    (h : storedValue file key = none) : getValue file key = answerOf none := by
  have hlookup : (entriesOf (file.getD [])).lookup key = none := by
    rw [← Option.not_isSome_iff_eq_none, ← lastValue_isSome_iff, Option.not_isSome_iff_eq_none]
    exact h
  rw [getValue_eq, hlookup]

/-! ### Any order -/

/-- The hash map may be listed in every order. -/
theorem forall_order_iff {entries : List (Str × Str)} {P : List (Str × Str) → Prop} :
    (∀ order : IterationOrder, P (order.list entries)) ↔
      ∀ listed, listed.Perm entries → P listed := by
  constructor
  · intro h listed hperm
    have hlisted := h ⟨fun others => if others = entries then listed else others, fun others => by
      split
      next heq => rwa [heq]
      next => exact .refl others⟩
    simpa only [if_true] using hlisted
  · exact fun h order => h _ (order.perm entries)

/-- What a get says to a map that was written, in every order of its entries. -/
theorem printed_reads_iff (dict : Dict) (key : Str) (answer : Answer) :
    (∀ order, getValue (some (printDict order dict)) key = answer) ↔
      (∀ other text, dict[other]? = some text → ∀ value,
        (reread (cEntry (other, text))).lookup key = some value → answerOf (some value) = answer) ∧
      ((∀ other text, dict[other]? = some text → (reread (cEntry (other, text))).lookup key = none) →
        answerOf none = answer) := by
  have hread : ∀ order : IterationOrder, getValue (some (printDict order dict)) key =
      answerOf ((order.list dict.toList).findSome? fun entry => (reread (cEntry entry)).lookup key) := by
    intro order
    rw [getValue_eq, Option.getD_some, printDict, entriesOf_printLines_eq_flatMap, List.flatMap_map,
      lookup_flatMap]
  simp only [hread]
  rw [forall_order_iff (P := fun listed =>
      answerOf (listed.findSome? fun entry => (reread (cEntry entry)).lookup key) = answer),
    forall_perm_findSome?_iff (P := fun value => answerOf value = answer)]
  simp only [Prod.forall, TreeMap.mem_toList_iff_getElem?_eq_some]

/-! ### The own line -/

/-- A key that a line can hold reads as the first line of the value. -/
theorem lookup_reread_self {key : Str} (value : Str) (hequals : '=' ∉ key) (hline : '\n' ∉ key) :
    (reread (key, value)).lookup key = some (value.takeWhile (· != '\n')) := by
  have hfirst : '\n' ∉ value.takeWhile (· != '\n') := fun hmem => by
    simpa using List.mem_takeWhile_imp hmem
  have hplain : Plain (key, value.takeWhile (· != '\n')) := ⟨hequals, hline, hfirst⟩
  cases hrest : value.dropWhile (· != '\n') with
  | nil =>
      have hwhole : value.takeWhile (· != '\n') = value :=
        List.takeWhile_eq_self_iff.mpr (List.dropWhile_eq_nil_iff.mp hrest)
      rw [hwhole] at hplain ⊢
      rw [reread_plain hplain, List.lookup_cons_self]
  | cons c rest =>
      obtain ⟨hstop, hsplit⟩ := dropWhile_eq_cons hrest
      obtain rfl : c = '\n' := by simpa using hstop
      have hprinted : printLines [(key, value)] =
          printEntry (key, value.takeWhile (· != '\n')) ++ '\n' :: (rest ++ ['\n']) := by
        conv => lhs; rw [← hsplit]
        simp [printLines, printEntry]
      have hown : entriesOf (printEntry (key, value.takeWhile (· != '\n')) ++ ['\n']) =
          [(key, value.takeWhile (· != '\n'))] := by
        rw [← reread_plain hplain]
        simp [reread, printLines]
      rw [reread, hprinted, entriesOf_append, hown, List.singleton_append, List.lookup_cons_self]

/-- A key that no line can hold is not found. -/
theorem lookup_reread_none {entry : Str × Str} {key : Str} (h : '=' ∈ key ∨ '\n' ∈ key) :
    (reread entry).lookup key = none := by
  rw [List.lookup_eq_none_iff]
  intro other hother
  have hplain := Plain.of_mem_entriesOf hother
  rw [bne_iff_ne]
  rintro rfl
  exact h.elim hplain.no_equals hplain.key_line

theorem answerOf_ne_nil {value : Str} (h : value ≠ []) :
    answerOf (some value) = ⟨.success, some ((cStr value).take (maxParamLen - 1))⟩ := by
  cases value with
  | nil => exact absurd rfl h
  | cons c value => rfl

/-- The first line of a value is read like the value when the break comes late enough. -/
theorem answerOf_firstLine {value : Str} (hvalue : NulFree value) (hne : value ≠ []) :
    answerOf (some (value.takeWhile (· != '\n'))) =
        ⟨.success, some (value.take (maxParamLen - 1))⟩ ↔
      '\n' ∉ value.take (maxParamLen - 1) := by
  have hnul : cStr (value.takeWhile (· != '\n')) = value.takeWhile (· != '\n') :=
    cStr_of_not_mem fun hmem => hvalue (List.takeWhile_subset _ hmem)
  constructor
  · intro h hmem
    cases hfirst : value.takeWhile (· != '\n') with
    | nil =>
        rw [hfirst] at h
        cases h
    | cons c first =>
        rw [answerOf_ne_nil (by simp [hfirst]), hnul] at h
        rw [← Option.some.inj (congrArg Answer.value h)] at hmem
        simpa using List.mem_takeWhile_imp (List.mem_of_mem_take hmem)
  · intro hnotmem
    have hfirst : value.takeWhile (· != '\n') = value.take (maxParamLen - 1) ++
        (value.drop (maxParamLen - 1)).takeWhile (· != '\n') := by
      conv => lhs; rw [← List.take_append_drop (maxParamLen - 1) value]
      exact List.takeWhile_append_of_pos (bne_of_not_mem hnotmem)
    have htake : (value.takeWhile (· != '\n')).take (maxParamLen - 1) =
        value.take (maxParamLen - 1) := by
      rw [hfirst]
      by_cases hlen : maxParamLen - 1 ≤ value.length
      · exact List.take_left' (by rw [List.length_take]; omega)
      · rw [List.drop_eq_nil_of_le (by omega), List.takeWhile_nil, List.append_nil, List.take_take,
          Nat.min_self]
    have hnonempty : value.takeWhile (· != '\n') ≠ [] := by
      obtain ⟨c, rest, rfl⟩ := List.exists_cons_of_ne_nil hne
      have hc : c ≠ '\n' := bne_iff_ne.mp (bne_of_not_mem hnotmem c (by simp [maxParamLen]))
      simp [hc]
    rw [answerOf_ne_nil hnonempty, hnul, htake]

/-! ### One set -/

theorem NulFree.cStr_eq {s : Str} (h : NulFree s) : cStr s = s := cStr_of_not_mem h

theorem getElem?_insert_readDict (file : Option Str) (key value other : Str) :
    ((readDict file).insert key value)[other]? =
      if other = key then some value else storedValue file other := by
  rw [TreeMap.getElem?_insert, getElem?_readDict]
  by_cases hkey : other = key
  · simp [hkey]
  · have hcmp : compare key other ≠ .eq := fun heq => hkey (compare_eq_iff_eq.mp heq).symm
    rw [if_neg hcmp, if_neg hkey]

/-- The lines of the map after a set, as a get of `name` sees them: one for each other key of the file,
and what the own line is read as. -/
theorem lines_iff {file : Option Str} {key value : Str} (hkey : NulFree key) (hvalue : NulFree value)
    (name : Str) (answer : Answer) :
    (∀ other text, ((readDict file).insert key value)[other]? = some text → ∀ read,
        (reread (cEntry (other, text))).lookup name = some read → answerOf (some read) = answer) ↔
      (∀ other text, other ≠ key → storedValue file other = some text → cStr other = name →
        answerOf (some (cStr text)) = answer) ∧
      (∀ read, (reread (key, value)).lookup name = some read → answerOf (some read) = answer) := by
  have hown : cEntry (key, value) = (key, value) := by
    rw [cEntry, hkey.cStr_eq, hvalue.cStr_eq]
  simp only [getElem?_insert_readDict]
  constructor
  · intro h
    constructor
    · rintro other text hother hstored rfl
      refine h other text (by rwa [if_neg hother]) (cStr text) ?_
      rw [reread_of_storedValue hstored, List.lookup_cons_self]
    · intro read hread
      exact h key value (if_pos rfl) read (hown.symm ▸ hread)
  · rintro ⟨hothers, hline⟩ other text hentry read hread
    by_cases hother : other = key
    · subst hother
      rw [if_pos rfl] at hentry
      obtain rfl := Option.some.inj hentry
      exact hline read (hown ▸ hread)
    · rw [if_neg hother] at hentry
      rw [reread_of_storedValue hentry, List.lookup_singleton] at hread
      obtain ⟨hname, hread⟩ := Option.ite_none_right_eq_some.mp hread
      obtain rfl := Option.some.inj hread
      exact hothers other text hother hentry (eq_of_beq hname).symm

/-- Another key is left as it was: a key without a line after the set had none before it. -/
theorem reads_other_iff {file : Option Str} {key value : Str} (hkey : NulFree key)
    (hvalue : NulFree value) {name : Str} (hname : NulFree name) (hne : name ≠ key) :
    (∀ order, getValue (some (printDict order ((readDict file).insert key value))) name =
        getValue file name) ↔
      (∀ other text, other ≠ key → storedValue file other = some text → cStr other = name →
        answerOf (some (cStr text)) = getValue file name) ∧
      (∀ read, (reread (key, value)).lookup name = some read →
        answerOf (some read) = getValue file name) := by
  rw [printed_reads_iff, lines_iff hkey hvalue]
  refine and_iff_left fun hnone => ?_
  cases hstored : storedValue file name with
  | none => exact (getValue_of_storedValue_none hstored).symm
  | some text =>
      have hline := hnone name text (by rw [getElem?_insert_readDict, if_neg hne, hstored])
      rw [reread_of_storedValue hstored, hname.cStr_eq, List.lookup_cons_self] at hline
      cases hline

/-- The key itself reads the value. -/
theorem reads_self_iff {file : Option Str} {key value : Str} (hkey : NulFree key)
    (hvalue : NulFree value) (hne : value ≠ []) :
    (∀ order, getValue (some (printDict order ((readDict file).insert key value))) key =
        ⟨.success, some (value.take (maxParamLen - 1))⟩) ↔
      ('=' ∉ key ∧ '\n' ∉ key ∧ '\n' ∉ value.take (maxParamLen - 1)) ∧
      (∀ other text, other ≠ key → storedValue file other = some text → cStr other = key →
        answerOf (some (cStr text)) = ⟨.success, some (value.take (maxParamLen - 1))⟩) := by
  rw [printed_reads_iff, lines_iff hkey hvalue]
  by_cases hheld : '=' ∈ key ∨ '\n' ∈ key
  · -- no line gives such a key, so the get fails
    constructor
    · rintro ⟨-, hnone⟩
      cases hnone fun other text _ => lookup_reread_none hheld
    · rintro ⟨⟨hequals, hline, -⟩, -⟩
      exact absurd hheld (not_or.mpr ⟨hequals, hline⟩)
  · obtain ⟨hequals, hline⟩ := not_or.mp hheld
    have hself := lookup_reread_self value hequals hline
    have hown : cEntry (key, value) = (key, value) := by
      rw [cEntry, hkey.cStr_eq, hvalue.cStr_eq]
    simp only [hself, Option.some.injEq, forall_eq', answerOf_firstLine hvalue hne, hequals, hline,
      not_false_eq_true, true_and]
    constructor
    · rintro ⟨⟨hothers, hbreak⟩, -⟩
      exact ⟨hbreak, hothers⟩
    · rintro ⟨hbreak, hothers⟩
      refine ⟨⟨hothers, hbreak⟩, fun hnone => ?_⟩
      have hline := hnone key value (by rw [getElem?_insert_readDict, if_pos rfl])
      rw [hown, hself] at hline
      cases hline

/-- A set succeeds when the semaphore and the store open, and then writes the whole map. -/
theorem setLocalParam_success_iff {env : Access} (files : Files) {key : Str}
    (hcontrol : key ≠ tr181ClearParam) (value : Str) :
    (setLocalParam env files key value).1 = .success ↔ env.Succeeds := by
  have hsem : env.Succeeds ↔ env.semOpens = true ∧ env.storeOpens = true :=
    ⟨fun h => ⟨h.sem, h.store⟩, fun h => ⟨h.1, h.2⟩⟩
  rw [hsem, setLocalParam]
  cases env.semOpens with
  | false => simp
  | true =>
      simp only [if_true, setValue, writeBack, if_neg hcontrol, true_and]
      cases env.storeOpens with
      | false => simp
      | true => simp

theorem store_setLocalParam {env : Access} (henv : env.Succeeds) (files : Files) {key : Str}
    (hcontrol : key ≠ tr181ClearParam) (value : Str) :
    (setLocalParam env files key value).2 tr181LocalStoreFile =
      some (printDict env.order ((readDict (files tr181LocalStoreFile)).insert key value)) := by
  rw [setLocalParam, henv.sem, if_pos rfl]
  simp [setValue, writeBack, if_neg hcontrol, henv.store, storeWritten]

/-- **A set touches only its key** when the file holds no key with values that read differently, no key
or value has NULs, and neither the key nor the value breaks its line. -/
theorem touchesOnly_iff (files : Files) {key value : Str} (hkey : NulFree key) (hvalue : NulFree value)
    (hcontrol : key ≠ tr181ClearParam) :
    TouchesOnly files key value ↔ Framed (files tr181LocalStoreFile) key value := by
  have horders : TouchesOnly files key value ↔ ∀ order : IterationOrder,
      let after := some (printDict order ((readDict (files tr181LocalStoreFile)).insert key value))
      (∀ other, NulFree other → other ≠ key →
        getValue after other = getValue (files tr181LocalStoreFile) other) ∧
      (value ≠ [] → getValue after key = ⟨.success, some (value.take (maxParamLen - 1))⟩) := by
    constructor
    · intro h order
      have henv : Access.Succeeds ⟨true, true, order⟩ := ⟨rfl, rfl⟩
      have hset := h ⟨true, true, order⟩ ((setLocalParam_success_iff files hcontrol value).mpr henv)
      simpa only [store_setLocalParam henv files hcontrol value] using hset
    · intro h env hsuccess
      have henv := (setLocalParam_success_iff files hcontrol value).mp hsuccess
      simpa only [store_setLocalParam henv files hcontrol value] using h env.order
  rw [horders]
  constructor
  · intro h
    have hothers := fun other (hother : NulFree other) (hne : other ≠ key) =>
      (reads_other_iff hkey hvalue hother hne).mp fun order => (h order).1 other hother hne
    have hself := fun hne => (reads_self_iff hkey hvalue hne).mp fun order => (h order).2 hne
    refine ⟨?_, ?_, fun hne => (hself hne).1, fun hne => (hself hne).2⟩
    · intro other text hother hstored hprinted
      have hnul : NulFree (cStr other) := fun hmem => by
        simpa using List.mem_takeWhile_imp hmem
      exact (hothers (cStr other) hnul hprinted).1 other text hother hstored rfl
    · intro other text hother hne hread
      exact (hothers other hother hne).2 text hread
  · intro h order
    constructor
    · intro other hother hne
      refine (reads_other_iff hkey hvalue hother hne).mpr ⟨?_, ?_⟩ order
      · rintro kept text hkept hstored rfl
        exact h.kept kept text hkept hstored hne
      · exact fun read hread => h.added other read hother hne hread
    · intro hne
      exact (reads_self_iff hkey hvalue hne).mpr ⟨h.read hne, h.alone hne⟩ order

/-- In a file with one line a key, as the store writes it, a plain entry is set alone. -/
theorem framed_of_plain {file : Option Str} {key value : Str}
    (hentries : ∀ entry ∈ entriesOf (file.getD []), PlainEntry entry)
    (hkeys : ((entriesOf (file.getD [])).map (·.1)).Nodup) (hentry : PlainEntry (key, value)) :
    Framed file key value := by
  have hstored : ∀ {other text}, storedValue file other = some text → PlainEntry (other, text) :=
    fun h => hentries _ (lastValue_mem h)
  refine ⟨?_, ?_, ?_, ?_⟩
  · intro other text _ htext _
    have hplain := hstored htext
    rw [cStr_of_not_mem hplain.key_nul, cStr_of_not_mem hplain.value_nul, getValue_eq,
      ← lastValue_eq_lookup hkeys]
    exact congrArg answerOf htext.symm
  · intro other text _ hother hread
    rw [reread_plain hentry.toPlain, List.lookup_singleton, if_neg (by simpa using hother)] at hread
    cases hread
  · intro _
    exact ⟨hentry.no_equals, hentry.key_line, fun hmem => hentry.value_line (List.mem_of_mem_take hmem)⟩
  · intro _ other text hother htext hprinted
    rw [cStr_of_not_mem (hstored htext).key_nul] at hprinted
    exact absurd hprinted hother

theorem touchesOnly_oneLine :
    TouchesOnly (fun _ => some ['A', '=', '1', '\n']) ['B'] ['x', '=', 'y'] := by
  refine (touchesOnly_iff (fun _ => some ['A', '=', '1', '\n']) (by decide) (by decide) ?_).mpr ?_
  · exact toList_ne (s := "B") (by simp)
  · have hentries : entriesOf ['A', '=', '1', '\n'] = [(['A'], ['1'])] := by decide
    refine framed_of_plain ?_ ?_ ?_
    · simp only [Option.getD_some, hentries, List.mem_singleton, forall_eq]
      exact ⟨⟨by decide, by decide, by decide⟩, by decide, by decide⟩
    · simp [hentries]
    · exact ⟨⟨by decide, by decide, by decide⟩, by decide, by decide⟩

/-- A key on two lines: the first is read, the last is kept. -/
theorem not_touchesOnly :
    ¬ TouchesOnly (fun _ => some ['A', '=', '1', '\n', 'A', '=', '2', '\n']) ['B'] ['x'] := by
  intro h
  have hcontrol : ['B'] ≠ tr181ClearParam := toList_ne (s := "B") (by simp)
  have hreads : ∀ order : IterationOrder, getValue (some (printDict order
      ((readDict (some ['A', '=', '1', '\n', 'A', '=', '2', '\n'])).insert ['B'] ['x']))) ['A'] =
        ⟨.success, some ['1']⟩ := by
    intro order
    have henv : Access.Succeeds ⟨true, true, order⟩ := ⟨rfl, rfl⟩
    have hset := (h ⟨true, true, order⟩ ((setLocalParam_success_iff _ hcontrol _).mpr henv)).1 ['A']
      (by decide) (by decide)
    rw [store_setLocalParam henv _ hcontrol] at hset
    exact hset.trans (by decide)
  have hkept := ((printed_reads_iff _ _ _).mp hreads).1 ['A'] ['2']
    (by rw [getElem?_insert_readDict, if_neg (by decide)]; decide) ['2'] (by decide)
  exact absurd hkept (by decide)

end RfcMgr.LocalStore
