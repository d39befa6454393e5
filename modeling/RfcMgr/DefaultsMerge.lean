import RfcMgr.LookupPriority

/-! `init_rfcdefaults`, which puts the `.ini` files of the defaults directory together. An insertion that
takes nothing from a file fails the output stream, and a failed stream takes nothing more. -/

namespace RfcMgr.RfcApi

open KeyValueLines

/-- An entry of the directory: its name, and its text when it can be read. -/
structure DirEntry where
  name : Str
  text : Option Str

/-- What a `std::ofstream` has taken, and its `failbit`. -/
structure OutStream where
  written : Str
  failed : Bool

namespace OutStream

/-- `operator<<(streambuf*)`. -/
def insertBuffer (out : OutStream) (buffer : Option Str) : OutStream :=
  if out.failed then out
  else
    match buffer with
    | none => { out with failed := true }
    | some [] => { out with failed := true }
    | some text => { out with written := out.written ++ text }

def insertText (out : OutStream) (text : Str) : OutStream :=
  if out.failed then out else { out with written := out.written ++ text }

end OutStream

def mergeText (out : OutStream) (text : Option Str) : OutStream :=
  (out.insertBuffer text).insertText ['\n']

/-- One turn of the loop over the directory. -/
def mergeEntry (out : OutStream) (ent : DirEntry) : OutStream :=
  if contains ent.name ".ini".toList then mergeText out ent.text else out

/-- What is returned, and the combined file. `none` is a directory that does not open. -/
def initRfcdefaults (combinedOpens : Bool) (dir : Option (List DirEntry)) : Bool × Option Str :=
  match dir with
  | none => (false, none)
  | some entries =>
      let combined := entries.foldl mergeEntry ⟨[], !combinedOpens⟩
      (true, if combinedOpens then some combined.written else none)

/-- The texts of the `.ini` files. -/
def iniTexts (entries : List DirEntry) : List (Option Str) :=
  (entries.filter fun ent => contains ent.name ".ini".toList).map (·.text)

/-- The combined file has the lines of all readable files, in order, and answers for a key as the first of
them that holds it. -/
structure MergesAll (combinedOpens : Bool) (entries : List DirEntry) : Prop where
  lines : ((iniTexts entries).reduceOption.flatMap getLines).Sublist
    (getLines ((initRfcdefaults combinedOpens (some entries)).2.getD []))
  lookup : ∀ key, getValue (initRfcdefaults combinedOpens (some entries)).2 key =
    firstHolding ((iniTexts entries).reduceOption.map some) key

/-- The texts in front of the first file that is empty or cannot be read. -/
def keptTexts : List (Option Str) → List Str
  | some (c :: text) :: texts => (c :: text) :: keptTexts texts
  | _ => []

/-- The readable ones behind it. -/
def lostTexts : List (Option Str) → List Str
  | some (_ :: _) :: texts => lostTexts texts
  | texts => texts.reduceOption

/-- No line is lost: what stands behind the first empty or unreadable file is blank lines, and no more of
them than the line breaks behind the other files make up for. -/
structure NothingLost (kept lost : List Str) : Prop where
  blank : ∀ line ∈ lost.flatMap getLines, line = []
  room : (kept.flatMap getLines ++ lost.flatMap getLines).Sublist
    (kept.flatMap fun text => getLines (text ++ ['\n']))

/-! ### The stream -/

theorem mergeText_of_failed {out : OutStream} (h : out.failed = true) (text : Option Str) :
    mergeText out text = out := by
  simp [mergeText, OutStream.insertBuffer, OutStream.insertText, h]

theorem foldl_mergeText_of_failed {out : OutStream} (h : out.failed = true) (texts : List (Option Str)) :
    texts.foldl mergeText out = out := by
  induction texts with
  | nil => rfl
  | cons text texts ih => rw [List.foldl_cons, mergeText_of_failed h, ih]

theorem foldl_mergeEntry (entries : List DirEntry) (out : OutStream) :
    entries.foldl mergeEntry out = (iniTexts entries).foldl mergeText out := by
  rw [iniTexts, List.foldl_map, List.foldl_filter]
  rfl

/-- The stream takes the files up to the first one that fails it. -/
theorem foldl_mergeText_written (texts : List (Option Str)) (written : Str) :
    (texts.foldl mergeText ⟨written, false⟩).written =
      written ++ (keptTexts texts).flatMap fun text => text ++ ['\n'] := by
  induction texts generalizing written with
  | nil => simp [keptTexts]
  | cons text texts ih =>
      rw [List.foldl_cons]
      rcases text with _ | _ | ⟨c, text⟩
      · rw [foldl_mergeText_of_failed rfl]
        simp [mergeText, OutStream.insertBuffer, OutStream.insertText, keptTexts]
      · rw [foldl_mergeText_of_failed rfl]
        simp [mergeText, OutStream.insertBuffer, OutStream.insertText, keptTexts]
      · have hmerged : mergeText ⟨written, false⟩ (some (c :: text)) =
            ⟨written ++ (c :: text) ++ ['\n'], false⟩ := rfl
        rw [hmerged, ih, keptTexts, List.flatMap_cons]
        simp only [List.append_assoc]

theorem keptTexts_append_lostTexts (texts : List (Option Str)) :
    keptTexts texts ++ lostTexts texts = texts.reduceOption := by
  induction texts with
  | nil => rfl
  | cons text texts ih =>
      rcases text with _ | _ | ⟨c, text⟩
      · rfl
      · rfl
      · exact congrArg (List.cons (c :: text)) ih

theorem initRfcdefaults_combined (combinedOpens : Bool) (entries : List DirEntry) :
    (initRfcdefaults combinedOpens (some entries)).2 =
      if combinedOpens then
        some ((keptTexts (iniTexts entries)).flatMap fun text => text ++ ['\n']) else none := by
  cases combinedOpens with
  | false => rfl
  | true =>
      simp only [initRfcdefaults, foldl_mergeEntry, Bool.not_true, foldl_mergeText_written,
        List.nil_append, if_true]

/-! ### The lines -/

theorem getLines_flatMap_append (texts : List Str) :
    getLines (texts.flatMap fun text => text ++ ['\n']) =
      texts.flatMap fun text => getLines (text ++ ['\n']) := by
  induction texts with
  | nil => rfl
  | cons text texts ih =>
      rw [List.flatMap_cons, List.flatMap_cons, List.append_assoc, List.singleton_append, getLines_append,
        ih, getLines_append, getLines_nil, List.append_nil]

/-- A line break behind a text adds an empty line at most. -/
theorem getLines_snoc (text : Str) :
    getLines (text ++ ['\n']) = getLines text ∨ getLines (text ++ ['\n']) = getLines text ++ [[]] := by
  rw [getLines_append, getLines_nil, List.append_nil, getLines]
  split
  next hlast =>
    right
    obtain ⟨pieces, hpieces⟩ := List.getLast?_eq_some_iff.mp hlast
    rw [hpieces, List.dropLast_concat]
  next => exact Or.inl rfl

/-- What the lines of a text say of a key. -/
def lineSays (key : Str) (lines : List Str) : Option Str :=
  ((lines.map stripExport).filterMap splitEntry).lookup key

theorem lineSays_append (key : Str) (lines others : List Str) :
    lineSays key (lines ++ others) = (lineSays key lines).or (lineSays key others) := by
  rw [lineSays, List.map_append, List.filterMap_append, List.lookup_append]
  rfl

theorem lineSays_of_blank {lines : List Str} (h : ∀ line ∈ lines, line = []) (key : Str) :
    lineSays key lines = none := by
  have hnone : ∀ line ∈ lines.map stripExport, splitEntry line = none := by
    intro line hline
    obtain ⟨other, hother, rfl⟩ := List.mem_map.mp hline
    rw [h other hother]
    rfl
  rw [lineSays, List.filterMap_eq_nil_iff.mpr hnone]
  rfl

theorem lineValue_eq_lineSays (file : Option Str) (key : Str) :
    lineValue file key = lineSays key (getLines (file.getD [])) := by
  cases file with
  | none => rfl
  | some text => rfl

/-- The added line breaks say nothing. -/
theorem lineSays_flatMap_snoc (key : Str) (texts : List Str) :
    lineSays key (texts.flatMap fun text => getLines (text ++ ['\n'])) =
      lineSays key (texts.flatMap getLines) := by
  induction texts with
  | nil => rfl
  | cons text texts ih =>
      have hblank : lineSays key [[]] = none := rfl
      have hbreak : lineSays key (getLines (text ++ ['\n'])) = lineSays key (getLines text) := by
        obtain hsame | hadded := getLines_snoc text
        · rw [hsame]
        · rw [hadded, lineSays_append, hblank, Option.or_none]
      rw [List.flatMap_cons, List.flatMap_cons, lineSays_append, lineSays_append, ih, hbreak]

/-- The first text that holds a key is where the lines of them all have it first. -/
theorem firstHolding_eq (texts : List Str) (key : Str) {file : Option Str}
    (h : lineValue file key = lineSays key (texts.flatMap getLines)) :
    firstHolding (texts.map some) key = getValue file key := by
  induction texts with
  | nil => exact (getValue_none h).symm
  | cons text texts ih =>
      rw [firstHolding, List.map_cons, List.find?_cons]
      rw [List.flatMap_cons, lineSays_append] at h
      have htext : lineValue (some text) key = lineSays key (getLines text) := rfl
      cases hline : lineSays key (getLines text) with
      | some value =>
          rw [htext, hline, Option.isSome_some]
          rw [hline, Option.some_or] at h
          exact getValue_congr (htext.trans (hline.trans h.symm))
      | none =>
          rw [htext, hline, Option.isSome_none]
          rw [hline, Option.none_or] at h
          exact ih h

/-- The lines with text on them. -/
theorem filter_flatMap_snoc (texts : List Str) :
    (texts.flatMap fun text => getLines (text ++ ['\n'])).filter (· ≠ []) =
      (texts.flatMap getLines).filter (· ≠ []) := by
  induction texts with
  | nil => rfl
  | cons text texts ih =>
      have hbreak : (getLines (text ++ ['\n'])).filter (· ≠ []) = (getLines text).filter (· ≠ []) := by
        obtain hsame | hadded := getLines_snoc text
        · rw [hsame]
        · rw [hadded, List.filter_append]
          simp
      rw [List.flatMap_cons, List.flatMap_cons, List.filter_append, List.filter_append, ih, hbreak]

/-! ### The merge -/

/-- What goes into the combined file, and what does not. -/
def parts (combinedOpens : Bool) (entries : List DirEntry) : List Str × List Str :=
  if combinedOpens then (keptTexts (iniTexts entries), lostTexts (iniTexts entries))
  else ([], (iniTexts entries).reduceOption)

theorem parts_append (combinedOpens : Bool) (entries : List DirEntry) :
    (parts combinedOpens entries).1 ++ (parts combinedOpens entries).2 =
      (iniTexts entries).reduceOption := by
  cases combinedOpens with
  | false => rfl
  | true => exact keptTexts_append_lostTexts (iniTexts entries)

theorem getLines_combined (combinedOpens : Bool) (entries : List DirEntry) :
    getLines ((initRfcdefaults combinedOpens (some entries)).2.getD []) =
      (parts combinedOpens entries).1.flatMap fun text => getLines (text ++ ['\n']) := by
  rw [initRfcdefaults_combined]
  cases combinedOpens with
  | false => rfl
  | true => exact getLines_flatMap_append _

/-- **The merge loses nothing** when no `.ini` file behind the first empty or unreadable one has lines,
blank ones apart. -/
theorem mergesAll_iff (combinedOpens : Bool) (entries : List DirEntry) :
    MergesAll combinedOpens entries ↔
      NothingLost (parts combinedOpens entries).1 (parts combinedOpens entries).2 := by
  have hreadable : (iniTexts entries).reduceOption.flatMap getLines =
      (parts combinedOpens entries).1.flatMap getLines ++
        (parts combinedOpens entries).2.flatMap getLines := by
    rw [← parts_append combinedOpens entries, List.flatMap_append]
  constructor
  · intro h
    have hroom := h.lines
    rw [hreadable, getLines_combined] at hroom
    refine ⟨?_, hroom⟩
    -- the lines with text on them are counted
    have hcount := (hroom.filter (· ≠ [])).length_le
    rw [List.filter_append, List.length_append, filter_flatMap_snoc] at hcount
    have hnone : ((parts combinedOpens entries).2.flatMap getLines).filter (· ≠ []) = [] :=
      List.eq_nil_of_length_eq_zero (by omega)
    intro line hline
    have hnot := List.filter_eq_nil_iff.mp hnone line hline
    simpa using hnot
  · intro h
    refine ⟨?_, fun key => ?_⟩
    · rw [hreadable, getLines_combined]
      exact h.room
    · refine (firstHolding_eq _ key ?_).symm
      rw [lineValue_eq_lineSays, getLines_combined, lineSays_flatMap_snoc, hreadable, lineSays_append,
        lineSays_of_blank h.blank, Option.or_none]

/-- An empty file between two others: the last one is lost. -/
theorem not_mergesAll :
    let entries : List DirEntry := [⟨"a.ini".toList, some ['A', '=', '1', '\n']⟩,
      ⟨"b.ini".toList, some []⟩, ⟨"c.ini".toList, some ['C', '=', '3', '\n']⟩]
    getValue (initRfcdefaults true (some entries)).2 ['C'] = (.failure, none) ∧
      ¬ MergesAll true entries := by
  intro entries
  have htexts : iniTexts entries =
      [some ['A', '=', '1', '\n'], some [], some ['C', '=', '3', '\n']] := by
    have ha : contains "a.ini".toList ".ini".toList = true := contains_toList "a" "" (by simp)
    have hb : contains "b.ini".toList ".ini".toList = true := contains_toList "b" "" (by simp)
    have hc : contains "c.ini".toList ".ini".toList = true := contains_toList "c" "" (by simp)
    simp only [iniTexts, entries, List.filter_cons, ha, hb, hc, if_true, List.filter_nil, List.map_cons,
      List.map_nil]
  have hcombined : (initRfcdefaults true (some entries)).2 = some ['A', '=', '1', '\n', '\n'] := by
    rw [initRfcdefaults_combined, htexts]
    rfl
  have hlost : getValue (initRfcdefaults true (some entries)).2 ['C'] = (.failure, none) := by
    rw [hcombined]
    decide
  refine ⟨hlost, fun h => ?_⟩
  have hlookup := h.lookup ['C']
  rw [hlost, htexts] at hlookup
  exact absurd hlookup (by decide)

end RfcMgr.RfcApi
