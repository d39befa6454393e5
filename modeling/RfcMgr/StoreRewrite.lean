import RfcMgr.StoreClear
import Mathlib.Algebra.GroupWithZero.Nat

/-! Writing the local store back. The file is truncated when it is opened, its text then goes through the
buffer of a stream, and what the stream reports is not looked at. -/

namespace RfcMgr.LocalStore

open Std KeyValueLines LastInsert

/-! ### A buffered stream -/

/-- One `write` of the buffer: how much it is handed, and how much reaches the file, less when it
fails. -/
structure Flush where
  handed : Nat
  reached : Nat

/-- What has reached the file, and what the stream has not handed on. -/
def flushAll : List Flush → Str → Str × Str
  | [], text => ([], text)
  | flush :: flushes, text =>
      let (file, rest) := flushAll flushes (text.drop flush.handed)
      ((text.take flush.handed).take flush.reached ++ file, rest)

def Flush.Complete (flush : Flush) : Prop := flush.handed ≤ flush.reached

def handed (flushes : List Flush) : Nat := (flushes.map Flush.handed).sum

/-- Complete writes put the front of the text into the file. -/
theorem flushAll_of_complete {flushes : List Flush} (h : ∀ flush ∈ flushes, flush.Complete)
    (text : Str) : flushAll flushes text = (text.take (handed flushes), text.drop (handed flushes)) := by
  induction flushes generalizing text with
  | nil => simp [flushAll, handed]
  | cons flush flushes ih =>
      have hfirst : (text.take flush.handed).take flush.reached = text.take flush.handed :=
        List.take_of_length_le ((List.length_take_le ..).trans (h flush List.mem_cons_self))
      have hhanded : handed (flush :: flushes) = flush.handed + handed flushes := by
        simp [handed]
      rw [flushAll, ih (fun other hother => h other (List.mem_cons_of_mem _ hother)), hhanded]
      simp only [hfirst, List.drop_drop, List.take_add]

theorem flushAll_nil (flushes : List Flush) : flushAll flushes [] = ([], []) := by
  induction flushes with
  | nil => rfl
  | cons flush flushes ih => simp [flushAll, ih]

/-! ### A call that may be stopped -/

/-- How far a call comes: the process is stopped in front of the `fopen`, or behind it after some writes
of the buffer, or the call returns and `fclose` has written what was left. -/
inductive Fate where
  | stoppedBefore
  | stoppedAfter (flushes : List Flush)
  | returned (flushes : List Flush) (last : Nat)

/-- What is in the file that is written with `text`. -/
def Fate.content (text : Str) : Fate → Str
  | .stoppedBefore => []
  | .stoppedAfter flushes => (flushAll flushes text).1
  | .returned flushes last => (flushAll flushes text).1 ++ (flushAll flushes text).2.take last

/-- `setValue` up to that point: its status, when it returns, and the files. -/
def setValueUntil (env : Access) (fate : Fate) (files : Files) (key value : Str) :
    Option Tr181ErrorCode × Files :=
  let back := writeBack env (readDict (files tr181LocalStoreFile)) key value
  match fate with
  | .stoppedBefore => (none, files)
  | .stoppedAfter _ => (none, storeWritten files (back.2.map fun text => fate.content text))
  | .returned _ _ => (some back.1, storeWritten files (back.2.map fun text => fate.content text))

/-- Reading the file afterwards gives the whole old map or the whole new one, and the new one when the
call has returned success. -/
def Survives (env : Access) (fate : Fate) (files : Files) (key value : Str) : Prop :=
  let run := setValueUntil env fate files key value
  let read := getValue (run.2 tr181LocalStoreFile)
  let new := getValue ((setValue env files key value).2 tr181LocalStoreFile)
  (read = getValue (files tr181LocalStoreFile) ∨ read = new) ∧ (run.1 = some .success → read = new)

/-- The call is a clear that takes out no key or every key. -/
def NothingToWrite (file : Option Str) (key value : Str) : Prop :=
  key = tr181ClearParam ∧
    (¬ Hits file value ∨ ∀ other, (storedValue file other).isSome → cleared value other = true)

/-- The process is not stopped on the way through the writes, and none of them fails. -/
def Fate.Undisturbed (length : Nat) : Fate → Prop
  | .stoppedBefore => True
  | .stoppedAfter flushes => (∀ flush ∈ flushes, flush.Complete) ∧ length ≤ handed flushes
  | .returned flushes last => (∀ flush ∈ flushes, flush.Complete) ∧ length ≤ handed flushes + last

/-- The text that the call writes is that long. -/
def WritesLength (env : Access) (files : Files) (key value : Str) (length : Nat) : Prop :=
  ∃ text, (writeBack env (readDict (files tr181LocalStoreFile)) key value).2 = some text ∧
    text.length = length

/-! ### What a call writes -/

theorem printDict_ne_nil (order : IterationOrder) {dict : Dict} {key text : Str}
    (h : dict[key]? = some text) : entriesOf (printDict order dict) ≠ [] := by
  have hentry : (key, text) ∈ order.list dict.toList :=
    (order.perm _).mem_iff.mpr (TreeMap.mem_toList_iff_getElem?_eq_some.mpr h)
  rw [printDict, entriesOf_printLines_eq_flatMap, List.flatMap_map]
  obtain ⟨entry, hread⟩ := List.exists_mem_of_ne_nil _ (reread_ne_nil (cEntry (key, text)))
  exact List.ne_nil_of_mem (List.mem_flatMap.mpr ⟨(key, text), hentry, hread⟩)

theorem printDict_eq_nil {order : IterationOrder} {dict : Dict} (h : ∀ key : Str, dict[key]? = none) :
    printDict order dict = [] := by
  have hempty : dict.toList = [] := List.eq_nil_iff_forall_not_mem.mpr fun entry hentry => by
    have hsome := TreeMap.mem_toList_iff_getElem?_eq_some.mp hentry
    rw [h entry.1] at hsome
    cases hsome
  have hlisted : order.list dict.toList = [] := by
    rw [← List.perm_nil, ← hempty]
    exact order.perm _
  rw [printDict, hlisted]
  rfl

theorem writeBack_of_nothing {file : Option Str} {key value : Str} (h : NothingToWrite file key value)
    (env : Access) : (writeBack env (readDict file) key value).2 = none ∨
      (writeBack env (readDict file) key value).2 = some [] := by
  obtain ⟨rfl, hkeys⟩ := h
  simp only [writeBack, if_true]
  split
  next hfound =>
    have hall := hkeys.resolve_left (not_not.mpr ((found_iff ..).mp hfound))
    have hempty : printDict env.order (clearEntries env.order (readDict file) value).1 = [] := by
      apply printDict_eq_nil
      intro other
      rw [getElem?_clearEntries]
      split
      next => rfl
      next hkept =>
        rw [← Option.not_isSome_iff_eq_none]
        exact fun hstored => hkept (hall other hstored)
    cases env.storeOpens with
    | true => exact Or.inr (congrArg some hempty)
    | false => exact Or.inl rfl
  next => exact Or.inl rfl

/-- Any other call has entries to write. -/
theorem writeBack_of_something {file : Option Str} {key value : Str}
    (h : ¬ NothingToWrite file key value) :
    ∃ text, writeBack ⟨true, true, .same⟩ (readDict file) key value = (.success, some text) ∧
      entriesOf text ≠ [] := by
  by_cases hclear : key = tr181ClearParam
  · subst hclear
    simp only [NothingToWrite, true_and, not_or, not_not, not_forall] at h
    obtain ⟨hhits, other, hstored, hkept⟩ := h
    obtain ⟨text, htext⟩ := Option.isSome_iff_exists.mp hstored
    have hrest : (clearEntries .same (readDict file) value).1[other]? = some text := by
      rw [getElem?_clearEntries, if_neg hkept, htext]
    refine ⟨_, ?_, printDict_ne_nil .same hrest⟩
    simp only [writeBack, if_true, (found_iff .same file value).mpr hhits]
  · have hset : ((readDict file).insert key value)[key]? = some value := by
      rw [getElem?_insert_readDict, if_pos rfl]
    refine ⟨_, ?_, printDict_ne_nil .same hset⟩
    simp only [writeBack, if_neg hclear, if_true]

/-! ### Stopping -/

theorem Fate.content_of_undisturbed {fate : Fate} {text : Str} (h : fate.Undisturbed text.length) :
    fate = .stoppedBefore ∨ fate.content text = text := by
  cases fate with
  | stoppedBefore => exact Or.inl rfl
  | stoppedAfter flushes =>
      right
      rw [content, flushAll_of_complete h.1]
      exact List.take_of_length_le h.2
  | returned flushes last =>
      right
      have hrest : (text.drop (handed flushes)).take last = text.drop (handed flushes) := by
        apply List.take_of_length_le
        have hlen := h.2
        rw [List.length_drop]
        omega
      rw [content, flushAll_of_complete h.1]
      simp only [hrest, List.take_append_drop]

/-- A file that is complete, or was not opened, reads as asked. -/
theorem survives_of_content {env : Access} {fate : Fate} {files : Files} {key value : Str}
    (h : ∀ text, (writeBack env (readDict (files tr181LocalStoreFile)) key value).2 = some text →
      fate = .stoppedBefore ∨ fate.content text = text) :
    Survives env fate files key value := by
  rcases eq_or_ne fate .stoppedBefore with rfl | hne
  · exact ⟨Or.inl rfl, fun hstatus => by cases hstatus⟩
  · have hcontent : (writeBack env (readDict (files tr181LocalStoreFile)) key value).2.map
        (fun text => fate.content text) =
          (writeBack env (readDict (files tr181LocalStoreFile)) key value).2 := by
      cases hwritten : (writeBack env (readDict (files tr181LocalStoreFile)) key value).2 with
      | none => rfl
      | some text => exact congrArg some ((h text hwritten).resolve_left hne)
    have hafter : (setValueUntil env fate files key value).2 = (setValue env files key value).2 := by
      cases fate with
      | stoppedBefore => exact absurd rfl hne
      | stoppedAfter flushes => exact congrArg (storeWritten files) hcontent
      | returned flushes last => exact congrArg (storeWritten files) hcontent
    have hread := congrArg (fun after : Files => getValue (after tr181LocalStoreFile)) hafter
    exact ⟨Or.inr hread, fun _ => hread⟩

/-- A text with entries reads as another map than the empty one. -/
theorem getValue_ne_of_entries {text : Str} (h : entriesOf text ≠ []) :
    getValue (some []) ≠ getValue (some text) := by
  obtain ⟨⟨key, value⟩, hentry⟩ := List.exists_mem_of_ne_nil _ h
  have hstored : (storedValue (some text) key).isSome := by
    rw [storedValue, Option.getD_some, lastValue_isSome_iff, List.lookup_isSome_iff]
    exact ⟨_, hentry, beq_self_eq_true key⟩
  intro heq
  exact getValue_ne_failure hstored (congrFun heq key).symm

/-- With entries to write, a call whose writes all fail returns success over an empty file. -/
theorem not_survives_of_something {files : Files} {key value : Str}
    (h : ¬ NothingToWrite (files tr181LocalStoreFile) key value) :
    ¬ Survives ⟨true, true, .same⟩ (.returned [] 0) files key value := by
  obtain ⟨text, hwritten, hentries⟩ := writeBack_of_something h
  intro h
  have hsuccess := h.2
  simp only [setValueUntil, setValue, hwritten, Option.map_some, Fate.content, flushAll,
    List.take_zero, List.append_nil, storeWritten, Function.update_self, true_imp_iff] at hsuccess
  exact getValue_ne_of_entries hentries hsuccess

/-- **When the store survives interruption.** Of the calls, only those survive every interruption that
have nothing to write; of the interruptions, every call survives those in front of the `fopen` and those
behind complete writes. -/
theorem survives_iff (files : Files) (key value : Str) :
    ((∀ env fate, Survives env fate files key value) ↔
      NothingToWrite (files tr181LocalStoreFile) key value) ∧
    ∀ env fate, (∀ length, WritesLength env files key value length → fate.Undisturbed length) →
      Survives env fate files key value := by
  constructor
  · constructor
    · intro h
      by_contra hnot
      exact not_survives_of_something hnot (h _ _)
    · intro h env fate
      apply survives_of_content
      intro text htext
      obtain hnone | hempty := writeBack_of_nothing h env
      · rw [hnone] at htext
        cases htext
      · obtain rfl := Option.some.inj (hempty.symm.trans htext)
        cases fate with
        | stoppedBefore => exact Or.inl rfl
        | stoppedAfter flushes => exact Or.inr (by simp [Fate.content, flushAll_nil])
        | returned flushes last => exact Or.inr (by simp [Fate.content, flushAll_nil])
  · intro env fate h
    exact survives_of_content fun text htext =>
      Fate.content_of_undisturbed (h text.length ⟨text, htext, rfl⟩)

/-- A set whose text goes out in two writes. -/
theorem survives_twoWrites :
    Survives ⟨true, true, .same⟩ (.returned [⟨5, 5⟩] 5) (fun _ => some ['A', '=', '1', '\n'])
      ['B'] ['2'] := by
  have hcontrol : ['B'] ≠ tr181ClearParam := toList_ne (s := "B") (by simp)
  have hprinted : printDict .same ((readDict (some ['A', '=', '1', '\n'])).insert ['B'] ['2']) =
      ['A', '=', '1', '\n', 'B', '=', '2', '\n'] := by
    rfl
  refine (survives_iff _ _ _).2 _ _ ?_
  rintro length ⟨text, hwritten, rfl⟩
  simp only [writeBack, if_neg hcontrol, if_true, Option.some.injEq] at hwritten
  rw [← hwritten, hprinted]
  exact ⟨by simp [Flush.Complete], by simp [handed]⟩

/-- A store of one parameter, stopped right behind the `fopen` while another one is set: both are gone. -/
theorem not_survives :
    ¬ Survives ⟨true, true, .same⟩ (.stoppedAfter [])
      (fun _ => some ['A', '=', '1', '\n']) ['B'] ['2'] := by
  have hcontrol : ['B'] ≠ tr181ClearParam := toList_ne (s := "B") (by simp)
  have hset : ((readDict (some ['A', '=', '1', '\n'])).insert ['B'] ['2'])[['B']]? = some ['2'] := by
    rw [getElem?_insert_readDict, if_pos rfl]
  intro h
  have hread := h.1
  simp only [setValueUntil, setValue, writeBack, if_neg hcontrol, if_true, Option.map_some,
    Fate.content, flushAll, storeWritten, Function.update_self] at hread
  rcases hread with hold | hnew
  · exact absurd (congrFun hold ['A']) (by decide)
  · exact getValue_ne_of_entries (printDict_ne_nil _ hset) hnew

end RfcMgr.LocalStore
