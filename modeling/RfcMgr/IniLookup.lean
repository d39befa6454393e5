import RfcMgr.VariableFile

/-! Which lines of an ini file the lookup of rfcapi.cpp takes for a key. It cuts every line at its first
blank, wherever that is, where only the word `export` is meant to go. -/

namespace RfcMgr.RfcApi

open KeyValueLines

/-- The characters of `find_first_of(" \t")`. -/
def Blank (c : Char) : Prop := c = ' ' ∨ c = '\t'

def Unblanked (s : Str) : Prop := ∀ c ∈ s, ¬ Blank c

/-- A name that is looked up: no whitespace and no `=`. -/
structure IsKey (key : Str) : Prop where
  no_blank : Unblanked key
  no_newline : '\n' ∉ key
  no_equals : '=' ∉ key

/-- The line assigns the value to the key. -/
def Assigns (key line value : Str) : Prop :=
  line = key ++ '=' :: value ∨ line = "export ".toList ++ (key ++ '=' :: value)

/-- The line is taken for one of the key: it starts with the assignment and has no blank, or the
assignment stands behind its first blank. -/
def SeenAs (key line value : Str) : Prop :=
  (line = key ++ '=' :: value ∧ Unblanked value) ∨
    ∃ word blank, Unblanked word ∧ Blank blank ∧ line = word ++ blank :: (key ++ '=' :: value)

/-- The first of the lines that is related to a value, and that value. -/
def FirstLine (R : Str → Str → Prop) (lines : List Str) (value : Str) : Prop :=
  ∃ earlier line later, lines = earlier ++ line :: later ∧ R line value ∧
    ∀ other ∈ earlier, ∀ value', ¬ R other value'

/-- The lookup answers with the first line that assigns the key, and fails without one. -/
structure Faithful (file : Option Str) (key : Str) : Prop where
  found : ∀ value, FirstLine (Assigns key) (getLines (file.getD [])) value →
    getValue file key = if value = [] then (wdmpErrValueIsEmpty, none)
      else (.success, some (value.take (maxParamLen - 1)))
  missing : (∀ line ∈ getLines (file.getD []), ∀ value, ¬ Assigns key line value) →
    getValue file key = (.failure, none)

/-- Both values read alike: both are empty, or neither and the first up to a NUL is the second as far as
the buffer goes. -/
def ReadsAs (seen value : Str) : Prop :=
  (seen = [] ↔ value = []) ∧ (cStr seen).take (maxParamLen - 1) = value.take (maxParamLen - 1)

/-- The first line that is taken for the key reads like the first that assigns it, and without such a line
none is taken for it. -/
structure SeenRight (file : Option Str) (key : Str) : Prop where
  found : ∀ value, FirstLine (Assigns key) (getLines (file.getD [])) value →
    ∃ seen, FirstLine (SeenAs key) (getLines (file.getD [])) seen ∧ ReadsAs seen value
  missing : (∀ line ∈ getLines (file.getD []), ∀ value, ¬ Assigns key line value) →
    ∀ line ∈ getLines (file.getD []), ∀ value, ¬ SeenAs key line value

/-! ### One line -/

theorem not_blank_iff {c : Char} : ¬ Blank c ↔ (c != ' ' && c != '\t') = true := by
  rw [Blank, not_or, Bool.and_eq_true, bne_iff_ne, bne_iff_ne]

theorem stripExport_of_unblanked {line : Str} (h : Unblanked line) : stripExport line = line := by
  have hdrop : line.dropWhile (fun c => c != ' ' && c != '\t') = [] :=
    List.dropWhile_eq_nil_iff.mpr fun c hc => not_blank_iff.mp (h c hc)
  rw [stripExport, hdrop]

theorem stripExport_append {word : Str} (hword : Unblanked word) {blank : Char} (hblank : Blank blank)
    (rest : Str) : stripExport (word ++ blank :: rest) = rest := by
  have hdrop : (word ++ blank :: rest).dropWhile (fun c => c != ' ' && c != '\t') = blank :: rest := by
    rw [List.dropWhile_append_of_pos fun c hc => not_blank_iff.mp (hword c hc)]
    exact List.dropWhile_cons_of_neg fun hkeep => not_blank_iff.mpr hkeep hblank
  rw [stripExport, hdrop]

/-- A line is without blanks, or cut behind its first one. -/
theorem stripExport_cases (line : Str) :
    (Unblanked line ∧ stripExport line = line) ∨
      ∃ word blank, Unblanked word ∧ Blank blank ∧ line = word ++ blank :: stripExport line := by
  cases hdrop : line.dropWhile (fun c => c != ' ' && c != '\t') with
  | nil =>
      have hline : Unblanked line := fun c hc =>
        not_blank_iff.mpr (List.dropWhile_eq_nil_iff.mp hdrop c hc)
      exact Or.inl ⟨hline, stripExport_of_unblanked hline⟩
  | cons c rest =>
      obtain ⟨hstop, hsplit⟩ := dropWhile_eq_cons hdrop
      have hblank : Blank c := by
        by_contra hnot
        exact Bool.false_ne_true (hstop.symm.trans (not_blank_iff.mp hnot))
      have hstrip : stripExport line = rest := by
        rw [stripExport, hdrop]
      have hword : Unblanked (line.takeWhile fun c => c != ' ' && c != '\t') := fun d hd =>
        not_blank_iff.mpr (List.mem_takeWhile_imp (p := fun c => c != ' ' && c != '\t') hd)
      exact Or.inr ⟨_, c, hword, hblank, by rw [hstrip, hsplit]⟩

/-- What the scan makes of a line. -/
theorem splitEntry_stripExport_iff {key : Str} (hkey : IsKey key) {line value : Str} :
    splitEntry (stripExport line) = some (key, value) ↔ SeenAs key line value := by
  rw [splitEntry_eq_some_iff, and_iff_right hkey.no_equals]
  constructor
  · intro h
    obtain ⟨hline, hsame⟩ | ⟨word, blank, hword, hblank, hline⟩ := stripExport_cases line
    · rw [hsame] at h
      refine Or.inl ⟨h, fun c hc => hline c ?_⟩
      rw [h]
      exact List.mem_append_right key (List.mem_cons_of_mem _ hc)
    · exact Or.inr ⟨word, blank, hword, hblank, h ▸ hline⟩
  · rintro (⟨rfl, hvalue⟩ | ⟨word, blank, hword, hblank, rfl⟩)
    · apply stripExport_of_unblanked
      intro c hc
      rcases List.mem_append.mp hc with hc | hc
      · exact hkey.no_blank c hc
      · rcases List.mem_cons.mp hc with rfl | hc
        · simp [Blank]
        · exact hvalue c hc
    · exact stripExport_append hword hblank _

/-! ### The first line -/

/-- The value of a line, when the scan takes it for one of the key. -/
def seenValue (key line : Str) : Option Str :=
  (splitEntry (stripExport line)).bind fun entry => if key == entry.1 then some entry.2 else none

theorem seenValue_eq_some_iff {key : Str} (hkey : IsKey key) {line value : Str} :
    seenValue key line = some value ↔ SeenAs key line value := by
  rw [← splitEntry_stripExport_iff hkey, seenValue]
  cases splitEntry (stripExport line) with
  | none => simp
  | some entry =>
      rw [Option.bind_some, Option.ite_none_right_eq_some, beq_iff_eq, Option.some.injEq,
        Option.some.injEq, Prod.ext_iff]
      exact and_congr_left fun _ => eq_comm

theorem lineValue_eq_findSome? (file : Option Str) (key : Str) :
    lineValue file key = (getLines (file.getD [])).findSome? (seenValue key) := by
  cases file with
  | none => rfl
  | some text =>
      rw [lineValue, Option.bind_some, List.filterMap_map, lookup_filterMap]
      rfl

theorem lineValue_eq_some_iff {file : Option Str} {key : Str} (hkey : IsKey key) {value : Str} :
    lineValue file key = some value ↔ FirstLine (SeenAs key) (getLines (file.getD [])) value := by
  rw [lineValue_eq_findSome?, List.findSome?_eq_some_iff]
  simp only [FirstLine, seenValue_eq_some_iff hkey, Option.eq_none_iff_forall_ne_some, ne_eq]

theorem lineValue_eq_none_iff {file : Option Str} {key : Str} (hkey : IsKey key) :
    lineValue file key = none ↔
      ∀ line ∈ getLines (file.getD []), ∀ value, ¬ SeenAs key line value := by
  rw [lineValue_eq_findSome?, List.findSome?_eq_none_iff]
  simp only [Option.eq_none_iff_forall_ne_some, ne_eq, seenValue_eq_some_iff hkey]

/-! ### The lookup -/

/-- The answer to a lookup that meets that value. -/
def answerTo (value : Str) : WdmpStatus × Option Str :=
  if value = [] then (wdmpErrValueIsEmpty, none)
  else (.success, some ((cStr value).take (maxParamLen - 1)))

theorem getValue_of_lineValue {file : Option Str} {key value : Str} (h : lineValue file key = some value) :
    getValue file key = answerTo value := by
  rw [getValue, h]
  cases value with
  | nil => rfl
  | cons c value => rfl

theorem answerTo_ne_failure (value : Str) : answerTo value ≠ (.failure, none) := by
  unfold answerTo
  split
  · simp [wdmpErrValueIsEmpty]
  · simp

theorem answerTo_eq_iff {seen value : Str} :
    answerTo seen = (if value = [] then (wdmpErrValueIsEmpty, none)
      else (.success, some (value.take (maxParamLen - 1)))) ↔ ReadsAs seen value := by
  unfold answerTo ReadsAs
  by_cases hseen : seen = []
  · by_cases hvalue : value = []
    · simp [hseen, hvalue, cStr]
    · simp [hseen, hvalue, wdmpErrValueIsEmpty]
  · by_cases hvalue : value = []
    · simp [hseen, hvalue, wdmpErrValueIsEmpty]
    · simp [hseen, hvalue]

/-- **An ini lookup is faithful** when the first line it takes for the key is, or reads like, the first
one that assigns it. -/
theorem faithful_iff_seenRight (file : Option Str) {key : Str} (hkey : IsKey key) :
    Faithful file key ↔ SeenRight file key := by
  constructor
  · intro h
    refine ⟨fun value hvalue => ?_, fun hnone => ?_⟩
    · have hanswer := h.found value hvalue
      cases hseen : lineValue file key with
      | none =>
          rw [getValue_none hseen] at hanswer
          split at hanswer
          · simp [wdmpErrValueIsEmpty] at hanswer
          · simp at hanswer
      | some seen =>
          rw [getValue_of_lineValue hseen] at hanswer
          exact ⟨seen, (lineValue_eq_some_iff hkey).mp hseen, answerTo_eq_iff.mp hanswer⟩
    · have hanswer := h.missing hnone
      cases hseen : lineValue file key with
      | none => exact (lineValue_eq_none_iff hkey).mp hseen
      | some seen =>
          rw [getValue_of_lineValue hseen] at hanswer
          exact absurd hanswer (answerTo_ne_failure seen)
  · intro h
    refine ⟨fun value hvalue => ?_, fun hnone => ?_⟩
    · obtain ⟨seen, hseen, hreads⟩ := h.found value hvalue
      rw [getValue_of_lineValue ((lineValue_eq_some_iff hkey).mpr hseen)]
      exact answerTo_eq_iff.mpr hreads
    · exact getValue_none ((lineValue_eq_none_iff hkey).mpr (h.missing hnone))

/-! ### Files without stray blanks -/

theorem assigns_of_unblanked {key line : Str} (hline : Unblanked line) (value : Str) :
    Assigns key line value ↔ SeenAs key line value := by
  have hexport : "export ".toList = ['e', 'x', 'p', 'o', 'r', 't', ' '] := by simp
  constructor
  · rintro (rfl | rfl)
    · exact Or.inl ⟨rfl, fun c hc => hline c (List.mem_append_right key (List.mem_cons_of_mem _ hc))⟩
    · refine absurd (Or.inl rfl) (hline ' ' (List.mem_append_left _ ?_))
      simp [hexport]
  · rintro (⟨rfl, -⟩ | ⟨word, blank, -, hblank, rfl⟩)
    · exact Or.inl rfl
    · exact absurd hblank (hline blank (List.mem_append_right word List.mem_cons_self))

theorem assigns_of_export {key : Str} (hkey : IsKey key) (rest value : Str) :
    Assigns key ("export ".toList ++ rest) value ↔ SeenAs key ("export ".toList ++ rest) value := by
  have hexport : "export ".toList = ['e', 'x', 'p', 'o', 'r', 't', ' '] := by simp
  have hword : "export ".toList ++ rest = ['e', 'x', 'p', 'o', 'r', 't'] ++ ' ' :: rest := by
    simp [hexport]
  have hunblanked : Unblanked ['e', 'x', 'p', 'o', 'r', 't'] := by
    simp [Unblanked, Blank]
  rw [← splitEntry_stripExport_iff hkey, hword, stripExport_append hunblanked (Or.inl rfl),
    splitEntry_eq_some_iff, and_iff_right hkey.no_equals, ← hword, Assigns, List.append_cancel_left_eq]
  refine or_iff_right fun hplain => ?_
  -- the key would hold the blank
  rw [hexport] at hplain
  obtain ⟨later, hkeyIs, -⟩ | ⟨later, hfront, hrest⟩ := List.append_eq_append_iff.mp hplain
  · exact hkey.no_blank ' ' (by simp [hkeyIs]) (Or.inl rfl)
  · cases later with
    | nil =>
        rw [List.append_nil] at hfront
        exact hkey.no_blank ' ' (hfront ▸ by simp) (Or.inl rfl)
    | cons c later =>
        obtain rfl := (List.cons.inj hrest).1
        have hequals : '=' ∈ ['e', 'x', 'p', 'o', 'r', 't', ' '] :=
          hfront ▸ List.mem_append_right key List.mem_cons_self
        simp at hequals

/-- A file whose blanks all stand behind an `export`, as the writers of such files leave it. -/
theorem seenRight_of_shapes {file : Option Str} {key : Str} (hkey : IsKey key)
    (hlines : ∀ line ∈ getLines (file.getD []), Unblanked line ∨ "export ".toList <+: line)
    (hnul : ∀ line ∈ getLines (file.getD []), Char.ofNat 0 ∉ line) : SeenRight file key := by
  have hsame : ∀ line ∈ getLines (file.getD []), ∀ value,
      Assigns key line value ↔ SeenAs key line value := by
    intro line hline value
    rcases hlines line hline with hunblanked | ⟨rest, rfl⟩
    · exact assigns_of_unblanked hunblanked value
    · exact assigns_of_export hkey rest value
  refine ⟨?_, fun hnone line hline value => by rw [← hsame line hline]; exact hnone line hline value⟩
  rintro value ⟨earlier, line, later, heq, hassigns, hearlier⟩
  have hmem : ∀ other ∈ earlier ++ [line], other ∈ getLines (file.getD []) := by
    intro other hother
    rw [heq]
    rcases List.mem_append.mp hother with hother | hother
    · exact List.mem_append_left _ hother
    · exact List.mem_append_right _ (List.mem_singleton.mp hother ▸ List.mem_cons_self)
  have hline := hmem line (by simp)
  refine ⟨value, ⟨earlier, line, later, heq, (hsame line hline value).mp hassigns, ?_⟩, Iff.rfl, ?_⟩
  · intro other hother value' hseen
    exact hearlier other hother value' ((hsame other (hmem other (by simp [hother])) value').mpr hseen)
  · have hvalue : Char.ofNat 0 ∉ value := by
      intro hin
      rcases hassigns with rfl | rfl
      · exact hnul _ hline (by simp [hin])
      · exact hnul _ hline (by simp [hin])
    rw [cStr_of_not_mem hvalue]

theorem faithful_export :
    Faithful (some ['e', 'x', 'p', 'o', 'r', 't', ' ', 'K', '=', 'a', ' ', 'b', '\n']) ['K'] := by
  have hkey : IsKey ['K'] := ⟨by simp [Unblanked, Blank], by decide, by decide⟩
  have hexport : "export ".toList = ['e', 'x', 'p', 'o', 'r', 't', ' '] := by simp
  have hlines : getLines ['e', 'x', 'p', 'o', 'r', 't', ' ', 'K', '=', 'a', ' ', 'b', '\n'] =
      [['e', 'x', 'p', 'o', 'r', 't', ' ', 'K', '=', 'a', ' ', 'b']] := by decide
  refine (faithful_iff_seenRight _ hkey).mpr (seenRight_of_shapes hkey ?_ ?_)
  · simp only [Option.getD_some, hlines, List.mem_singleton, forall_eq, hexport]
    exact Or.inr ⟨['K', '=', 'a', ' ', 'b'], rfl⟩
  · simp only [Option.getD_some, hlines, List.mem_singleton, forall_eq]
    decide

/-- A value with a blank makes its key invisible. -/
theorem not_faithful_blank : ¬ Faithful (some ['K', '=', 'a', ' ', 'b', '\n']) ['K'] := by
  have hlines : getLines ['K', '=', 'a', ' ', 'b', '\n'] = [['K', '=', 'a', ' ', 'b']] := by decide
  intro h
  have hfound := h.found ['a', ' ', 'b'] ?_
  · exact absurd hfound (by decide)
  · simp only [Option.getD_some, hlines]
    exact ⟨[], _, [], rfl, Or.inl rfl, fun _ hnil => absurd hnil List.not_mem_nil⟩

end RfcMgr.RfcApi
