import RfcMgr.LastInsert
import Mathlib.Data.List.Nodup
import Mathlib.Data.List.TakeWhile

/-! Text files of `key=value` lines, and the order-free reading of a list of entries with different
keys. -/

namespace KeyValueLines

/-- `std::getline` until it fails: the last line needs no line break. -/
def getLines (text : List Char) : List (List Char) :=
  let pieces := text.splitOn '\n'
  if pieces.getLast? = some [] then pieces.dropLast else pieces

/-- Splits at the first `=`; a line without one is no entry. -/
def splitEntry (line : List Char) : Option (List Char × List Char) :=
  match line.dropWhile (· != '=') with
  | [] => none
  | _ :: value => some (line.takeWhile (· != '='), value)

def printEntry (entry : List Char × List Char) : List Char := entry.1 ++ '=' :: entry.2

def printLines (entries : List (List Char × List Char)) : List Char :=
  entries.flatMap fun entry => printEntry entry ++ ['\n']

/-- The entries of a file, in the order of its lines. -/
def entriesOf (text : List Char) : List (List Char × List Char) :=
  (getLines text).filterMap splitEntry

/-- What C sees of a string: the part in front of its first NUL. -/
def cStr (s : List Char) : List Char := s.takeWhile (· != Char.ofNat 0)

def cEntry (entry : List Char × List Char) : List Char × List Char := (cStr entry.1, cStr entry.2)

/-- A scan for a character goes over a text that does not have it. -/
theorem bne_of_not_mem {s : List Char} {stop : Char} (h : stop ∉ s) : ∀ c ∈ s, (c != stop) = true :=
  fun _ hc => bne_iff_ne.mpr fun heq => h (heq ▸ hc)

theorem takeWhile_of_not_mem {s : List Char} {stop : Char} (h : stop ∉ s) :
    s.takeWhile (· != stop) = s := List.takeWhile_eq_self_iff.mpr (bne_of_not_mem h)

theorem takeWhile_append_stop {s : List Char} {stop : Char} (h : stop ∉ s) (rest : List Char) :
    (s ++ stop :: rest).takeWhile (· != stop) = s := by
  rw [List.takeWhile_append_of_pos (bne_of_not_mem h), List.takeWhile_cons_of_neg (by simp),
    List.append_nil]

theorem cStr_of_not_mem {s : List Char} (h : Char.ofNat 0 ∉ s) : cStr s = s := takeWhile_of_not_mem h

/-- Where a scan stops. -/
theorem dropWhile_eq_cons {α : Type*} {p : α → Bool} {l rest : List α} {c : α}
    (h : l.dropWhile p = c :: rest) : p c = false ∧ l.takeWhile p ++ c :: rest = l := by
  constructor
  · have hstop := List.head?_dropWhile_not p l
    rwa [h] at hstop
  · rw [← h, List.takeWhile_append_dropWhile]

theorem splitEntry_append {key : List Char} (hkey : '=' ∉ key) (value : List Char) :
    splitEntry (key ++ '=' :: value) = some (key, value) := by
  rw [splitEntry, List.dropWhile_append_of_pos (bne_of_not_mem hkey), takeWhile_append_stop hkey]
  simp

theorem splitEntry_eq_some_iff {line key value : List Char} :
    splitEntry line = some (key, value) ↔ '=' ∉ key ∧ line = key ++ '=' :: value := by
  constructor
  · intro h
    unfold splitEntry at h
    split at h
    next => cases h
    next c rest hdrop =>
      obtain ⟨rfl, rfl⟩ := Prod.mk.inj (Option.some.inj h)
      obtain ⟨hstop, hsplit⟩ := dropWhile_eq_cons hdrop
      obtain rfl : c = '=' := by simpa using hstop
      refine ⟨fun hmem => ?_, hsplit.symm⟩
      simpa using List.mem_takeWhile_imp hmem
  · rintro ⟨hkey, rfl⟩
    exact splitEntry_append hkey value

theorem splitEntry_isSome {line : List Char} (h : '=' ∈ line) : (splitEntry line).isSome := by
  unfold splitEntry
  split
  next hnone =>
    have hall := List.dropWhile_eq_nil_iff.mp hnone '=' h
    simp at hall
  next => rfl

@[simp] theorem getLines_nil : getLines [] = [] := rfl

theorem getLines_append (text rest : List Char) :
    getLines (text ++ '\n' :: rest) = text.splitOn '\n' ++ getLines rest := by
  have hne := List.splitOn_ne_nil '\n' rest
  simp only [getLines, List.splitOn_append_cons_self]
  rw [List.getLast?_append_of_ne_nil _ hne, List.dropLast_append_of_ne_nil hne]
  split
  · rfl
  · rfl

theorem getLines_cons {line : List Char} (h : '\n' ∉ line) (rest : List Char) :
    getLines (line ++ '\n' :: rest) = line :: getLines rest := by
  rw [getLines_append, List.splitOn_eq_singleton h, List.singleton_append]

theorem entriesOf_append (text rest : List Char) :
    entriesOf (text ++ '\n' :: rest) = entriesOf (text ++ ['\n']) ++ entriesOf rest := by
  rw [entriesOf, entriesOf, entriesOf, getLines_append, getLines_append, getLines_nil, List.append_nil,
    List.filterMap_append]

/-- What the line of an entry is read as; line breaks and an `=` in the key tear it apart. -/
def reread (entry : List Char × List Char) : List (List Char × List Char) :=
  entriesOf (printLines [entry])

theorem entriesOf_printLines_eq_flatMap (entries : List (List Char × List Char)) :
    entriesOf (printLines entries) = entries.flatMap reread := by
  induction entries with
  | nil => rfl
  | cons entry entries ih =>
      have hcons : printLines (entry :: entries) = printEntry entry ++ '\n' :: printLines entries := by
        simp [printLines]
      have hsingle : printLines [entry] = printEntry entry ++ ['\n'] := by
        simp [printLines]
      rw [hcons, entriesOf_append, ih, List.flatMap_cons, reread, hsingle]

/-- No piece holds a separator. -/
theorem not_mem_of_mem_splitOn {text line : List Char} (h : line ∈ text.splitOn '\n') :
    '\n' ∉ line := by
  induction text generalizing line with
  | nil =>
      obtain rfl := List.mem_singleton.mp h
      exact List.not_mem_nil
  | cons c text ih =>
      rw [List.splitOn_cons_eq_if_modifyHead] at h
      split at h
      next =>
        rcases List.mem_cons.mp h with rfl | h
        · exact List.not_mem_nil
        · exact ih h
      next hne =>
        obtain ⟨piece, pieces, hpieces⟩ := List.exists_cons_of_ne_nil (List.splitOn_ne_nil '\n' text)
        rw [hpieces, List.modifyHead_cons] at h
        rcases List.mem_cons.mp h with rfl | h
        · rintro hmem
          rcases List.mem_cons.mp hmem with heq | hmem
          · exact hne (beq_iff_eq.mpr heq.symm)
          · exact ih (hpieces ▸ List.mem_cons_self) hmem
        · exact ih (hpieces ▸ List.mem_cons_of_mem _ h)

theorem not_mem_of_mem_getLines {text line : List Char} (h : line ∈ getLines text) : '\n' ∉ line := by
  unfold getLines at h
  simp only at h
  split at h
  · exact not_mem_of_mem_splitOn (List.dropLast_subset _ h)
  · exact not_mem_of_mem_splitOn h

/-- What is no line break stands on some line. -/
theorem exists_mem_getLines {c : Char} (hc : c ≠ '\n') {text : List Char} (h : c ∈ text) :
    ∃ line ∈ getLines text, c ∈ line := by
  have hpiece : ∃ piece ∈ text.splitOn '\n', c ∈ piece := by
    induction text with
    | nil => cases h
    | cons d text ih =>
        rw [List.splitOn_cons_eq_if_modifyHead]
        split
        next heq =>
          have hne : c ≠ d := fun hcd => hc (hcd.trans (eq_of_beq heq))
          obtain ⟨piece, hpiece, hmem⟩ := ih ((List.mem_cons.mp h).resolve_left hne)
          exact ⟨piece, List.mem_cons_of_mem _ hpiece, hmem⟩
        next =>
          obtain ⟨first, pieces, hpieces⟩ := List.exists_cons_of_ne_nil (List.splitOn_ne_nil '\n' text)
          rw [hpieces, List.modifyHead_cons]
          rcases List.mem_cons.mp h with rfl | h
          · exact ⟨c :: first, List.mem_cons_self, List.mem_cons_self⟩
          · obtain ⟨piece, hpiece, hmem⟩ := ih h
            rcases List.mem_cons.mp (hpieces ▸ hpiece) with rfl | hpiece
            · exact ⟨d :: piece, List.mem_cons_self, List.mem_cons_of_mem d hmem⟩
            · exact ⟨piece, List.mem_cons_of_mem _ hpiece, hmem⟩
  obtain ⟨piece, hmem, hin⟩ := hpiece
  refine ⟨piece, ?_, hin⟩
  unfold getLines
  simp only
  split
  next hlast =>
    -- only an empty piece is dropped
    obtain ⟨pieces, hpieces⟩ := List.getLast?_eq_some_iff.mp hlast
    rw [hpieces, List.mem_append, List.mem_singleton] at hmem
    rw [hpieces, List.dropLast_concat]
    refine hmem.resolve_right ?_
    rintro rfl
    cases hin
  next => exact hmem

/-- An entry that a line gives back. -/
structure Plain (entry : List Char × List Char) : Prop where
  no_equals : '=' ∉ entry.1
  key_line : '\n' ∉ entry.1
  value_line : '\n' ∉ entry.2

theorem Plain.line {entry : List Char × List Char} (h : Plain entry) : '\n' ∉ printEntry entry := by
  simp [printEntry, h.key_line, h.value_line]

theorem Plain.of_splitEntry {line : List Char} (hline : '\n' ∉ line) {entry : List Char × List Char}
    (h : splitEntry line = some entry) : Plain entry := by
  unfold splitEntry at h
  split at h
  next => cases h
  next c value hdrop =>
    obtain rfl := Option.some.inj h
    refine ⟨?_, ?_, ?_⟩
    · intro hmem
      simpa using List.mem_takeWhile_imp hmem
    · exact fun hmem => hline (List.takeWhile_subset _ hmem)
    · exact fun hmem => hline (List.dropWhile_subset _ (hdrop ▸ List.mem_cons_of_mem c hmem))

theorem Plain.of_mem_entriesOf {text : List Char} {entry : List Char × List Char}
    (h : entry ∈ entriesOf text) : Plain entry := by
  obtain ⟨line, hline, hsplit⟩ := List.mem_filterMap.mp h
  exact .of_splitEntry (not_mem_of_mem_getLines hline) hsplit

/-- Lines that are each ended by a line break come back. -/
theorem getLines_flatMap {lines : List (List Char)} (h : ∀ line ∈ lines, '\n' ∉ line) :
    getLines (lines.flatMap fun line => line ++ ['\n']) = lines := by
  induction lines with
  | nil => rfl
  | cons line lines ih =>
      rw [List.flatMap_cons, List.append_assoc, List.singleton_append,
        getLines_cons (h line List.mem_cons_self),
        ih fun other hother => h other (List.mem_cons_of_mem _ hother)]

theorem getLines_printLines {entries : List (List Char × List Char)}
    (h : ∀ entry ∈ entries, Plain entry) : getLines (printLines entries) = entries.map printEntry := by
  have hlines : ∀ line ∈ entries.map printEntry, '\n' ∉ line := by
    intro line hline
    obtain ⟨entry, hentry, rfl⟩ := List.mem_map.mp hline
    exact (h entry hentry).line
  rw [← getLines_flatMap hlines, List.flatMap_map]
  rfl

/-- **Reading back what was printed.** -/
theorem entriesOf_printLines {entries : List (List Char × List Char)}
    (h : ∀ entry ∈ entries, Plain entry) : entriesOf (printLines entries) = entries := by
  have hsplit : ∀ entry ∈ entries, splitEntry (printEntry entry) = some entry := fun entry hentry =>
    splitEntry_append (h entry hentry).no_equals entry.2
  rw [entriesOf, getLines_printLines h, List.filterMap_map]
  calc entries.filterMap (splitEntry ∘ printEntry)
      = entries.filterMap some := List.filterMap_congr fun entry hentry => hsplit entry hentry
    _ = entries := List.filterMap_some

theorem reread_plain {entry : List Char × List Char} (h : Plain entry) : reread entry = [entry] :=
  entriesOf_printLines fun other hother => by rwa [List.mem_singleton.mp hother]

/-- A printed entry is read as one entry at least. -/
theorem reread_ne_nil (entry : List Char × List Char) : reread entry ≠ [] := by
  have hmem : '=' ∈ printLines [entry] := by
    simp [printLines, printEntry]
  obtain ⟨line, hline, hequals⟩ := exists_mem_getLines (by decide) hmem
  obtain ⟨other, hother⟩ := Option.isSome_iff_exists.mp (splitEntry_isSome hequals)
  exact List.ne_nil_of_mem (List.mem_filterMap.mpr ⟨line, hline, hother⟩)

theorem not_mem_cStr {c : Char} {s : List Char} (h : c ∉ s) : c ∉ cStr s :=
  fun hmem => h (List.takeWhile_subset _ hmem)

theorem Plain.cEntry {entry : List Char × List Char} (h : Plain entry) : Plain (cEntry entry) :=
  ⟨not_mem_cStr h.no_equals, not_mem_cStr h.key_line, not_mem_cStr h.value_line⟩

/-- Whatever the order, some entry comes first: what is said of the first that `f` finds is said of
each. -/
theorem forall_perm_findSome?_iff {α β : Type*} {es : List α} {f : α → Option β}
    {P : Option β → Prop} :
    (∀ fs : List α, fs.Perm es → P (fs.findSome? f)) ↔
      (∀ e ∈ es, ∀ b, f e = some b → P (some b)) ∧ ((∀ e ∈ es, f e = none) → P none) := by
  constructor
  · intro h
    constructor
    · intro e he b hb
      obtain ⟨front, back, rfl⟩ := List.append_of_mem he
      have hfirst := h (e :: (front ++ back)) List.perm_middle.symm
      rwa [List.findSome?_cons, hb] at hfirst
    · intro hnone
      have hsame := h es (.refl es)
      rwa [List.findSome?_eq_none_iff.mpr hnone] at hsame
  · rintro ⟨hsome, hnone⟩ fs hperm
    cases hfirst : fs.findSome? f with
    | none =>
        exact hnone fun e he => List.findSome?_eq_none_iff.mp hfirst e (hperm.mem_iff.mpr he)
    | some b =>
        obtain ⟨e, he, hb⟩ := List.exists_of_findSome?_eq_some hfirst
        exact hsome e (hperm.mem_iff.mp he) b hb

section Lookup

variable {κ ν : Type*} [BEq κ]

theorem lookup_flatMap {ι : Type*} (l : List ι) (f : ι → List (κ × ν)) (k : κ) :
    (l.flatMap f).lookup k = l.findSome? fun i => (f i).lookup k := by
  induction l with
  | nil => rfl
  | cons i l ih =>
      rw [List.flatMap_cons, List.lookup_append, ih, List.findSome?_cons]
      cases (f i).lookup k with
      | none => rfl
      | some v => rfl

theorem lookup_filterMap {ι : Type*} (l : List ι) (f : ι → Option (κ × ν)) (k : κ) :
    (l.filterMap f).lookup k =
      l.findSome? fun i => (f i).bind fun e => if k == e.1 then some e.2 else none := by
  induction l with
  | nil => rfl
  | cons i l ih =>
      rw [List.filterMap_cons, List.findSome?_cons]
      cases f i with
      | none => exact ih
      | some e =>
          simp only [Option.bind_some]
          rw [List.lookup_cons, ih]
          cases k == e.1 with
          | true => rfl
          | false => rfl

/-- A key has a last value when it has a first one. -/
theorem lastValue_isSome_iff {es : List (κ × ν)} {k : κ} :
    (LastInsert.lastValue es k).isSome ↔ (es.lookup k).isSome := by
  rw [LastInsert.lastValue, List.lookup_isSome_iff, List.lookup_isSome_iff]
  simp only [List.mem_reverse]

variable [LawfulBEq κ]

/-- With different keys the first entry of a key is its only one. -/
theorem lookup_eq_some_iff_mem {es : List (κ × ν)} (hkeys : (es.map (·.1)).Nodup) {k : κ} {v : ν} :
    es.lookup k = some v ↔ (k, v) ∈ es := by
  induction es with
  | nil => simp
  | cons e es ih =>
      rw [List.map_cons, List.nodup_cons] at hkeys
      rw [List.lookup_cons, List.mem_cons]
      cases hk : k == e.1 with
      | true =>
          obtain rfl : k = e.1 := eq_of_beq hk
          have hnot : (e.1, v) ∉ es := fun hmem =>
            hkeys.1 (List.mem_map.mpr ⟨(e.1, v), hmem, rfl⟩)
          constructor
          · intro h
            exact Or.inl (Prod.ext rfl (Option.some.inj h).symm)
          · intro h
            rcases h with h | h
            · rw [← h]
            · exact absurd h hnot
      | false =>
          have hne : (k, v) ≠ e := fun heq => ne_of_beq_false hk (congrArg Prod.fst heq)
          simp [ih hkeys.2, hne]

/-- The order of entries with different keys does not matter. -/
theorem lookup_perm {es fs : List (κ × ν)} (hperm : es.Perm fs) (hkeys : (es.map (·.1)).Nodup)
    (k : κ) : es.lookup k = fs.lookup k := by
  have hkeys' : (fs.map (·.1)).Nodup := (hperm.map (·.1)).nodup_iff.mp hkeys
  ext v
  rw [lookup_eq_some_iff_mem hkeys, lookup_eq_some_iff_mem hkeys', hperm.mem_iff]

theorem lastValue_eq_lookup {es : List (κ × ν)} (hkeys : (es.map (·.1)).Nodup) (k : κ) :
    LastInsert.lastValue es k = es.lookup k :=
  (lookup_perm es.reverse_perm.symm hkeys k).symm

end Lookup

section Map

open Std

variable {κ ν : Type*} [Ord κ] [TransOrd κ]

theorem nodup_keys_toList (m : TreeMap κ ν) : (m.toList.map (·.1)).Nodup := by
  rw [TreeMap.map_fst_toList_eq_keys]
  exact TreeMap.nodup_keys

variable [LawfulEqOrd κ] [BEq κ] [LawfulBEq κ]

/-- A map listed in any order gives back its values. -/
theorem lookup_of_perm_toList {m : TreeMap κ ν} {es : List (κ × ν)} (hperm : es.Perm m.toList)
    (k : κ) : es.lookup k = m[k]? := by
  have hkeys : (es.map (·.1)).Nodup := (hperm.map (·.1)).nodup_iff.mpr (nodup_keys_toList m)
  ext v
  rw [lookup_eq_some_iff_mem hkeys, hperm.mem_iff, TreeMap.mem_toList_iff_getElem?_eq_some]

end Map

end KeyValueLines
