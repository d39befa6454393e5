import RfcMgr.CronJob
import RfcMgr.DeviceOnline

/-! The crontab of the RDKB build over any number of launches. `manageCronJob` exports it, drops the lines
it takes for its own, adds the new entry and installs what comes of it; between the launches other
programs install crontabs as well. The cron string is the one of the DCM settings, or of the line that
was kept of them when there are none. -/

namespace RfcMgr.Crontab

open KeyValueLines CronJob
open DeviceOnline (fgets)

/-! ### Complete lines -/

def unlines (lines : List Str) : Str := lines.flatMap fun line => line ++ ['\n']

/-- A line that C strings and text files keep. -/
def Clean (line : Str) : Prop := '\n' ∉ line ∧ Char.ofNat 0 ∉ line

/-- The buffers that a loop over `fgets` reads. Every one has a byte, so the length of the text bounds
their number. -/
def readAll (size : Nat) : Nat → Str → List Str
  | 0, _ => []
  | passes + 1, text =>
      if text = [] then []
      else fgets size text :: readAll size passes (text.drop (fgets size text).length)

/-! ### The rewrite -/

/-- A line that `sed` deletes. -/
def isJob (line : Str) : Bool := contains line "rfcMgr".toList || contains line "RFCbase.sh".toList

/-- What a launch meets outside the process. -/
structure Tools where
  /-- The pipe from `crontab -l` opens. -/
  pipe : Bool
  /-- What `crontab -l` prints for a crontab, or says when there is none. -/
  listing : Option Str → Str
  /-- The openings of the temporary file. -/
  tempFileOut : Bool
  emptyFile : Bool
  cronFile : Bool
  /-- What `sed` leaves of the temporary file. -/
  sed : Str → Str
  /-- `crontab` takes the file. -/
  installs : Bool
  /-- The file that the DCM line is kept in opens. -/
  tmpFile : Bool

/-- What the loop writes of a text. -/
def copied (text : Str) : Str := (readAll 1024 text.length text).flatMap cStr

/-- The temporary file with the crontab in it; `none` is one that cannot be made. -/
def exportCrontab (t : Tools) (tab : Option Str) : Option Str :=
  if t.pipe && t.tempFileOut then some (copied (t.listing tab))
  else if t.emptyFile then some []
  else none

/-- `manageCronJob` behind the making of the entry. -/
def rewrite (t : Tools) (cronEntry : Str) (tab : Option Str) : Option Str :=
  match exportCrontab t tab with
  | none => tab
  | some content =>
      if t.cronFile && t.installs then some (t.sed content ++ (cronEntry ++ ['\n'])) else tab

def manageCronJob (t : Tools) (cron : Str) (tab : Option Str) : Option Str :=
  match CronJob.manageCronJob false cron with
  | none => tab
  | some cronEntry => rewrite t cronEntry tab

/-! ### The cron string -/

def searchString : Str := "urn:settings:CheckSchedule:cron".toList

/-- The line of the settings that both loops look for. -/
def dcmLine (text : Str) : Option Str := (getLines text).find? fun line => contains line searchString

/-- What is behind the first `=`. -/
def cronOf (line : Str) : Str := (line.dropWhile (· != '=')).tail

/-- The cron string, and the kept line of the settings. -/
def getCronFromDCMSettings (t : Tools) (dcm tmp : Option Str) : Str × Option Str :=
  match dcm with
  | some text =>
      match dcmLine text with
      | some line => (cronOf line, if t.tmpFile then some (line ++ ['\n']) else tmp)
      | none => ([], tmp)
  | none => (((tmp.bind dcmLine).map cronOf).getD [], tmp)

/-! ### What happens to a device -/

structure State where
  tab : Option Str
  /-- The file with the kept line. -/
  tmp : Option Str

inductive Step where
  /-- A launch that finds the device online, with the DCM settings there or not. -/
  | launch (dcm : Option Str) (t : Tools)
  /-- Another program installs a crontab. -/
  | edit (text : Str)

def Step.run (s : State) : Step → State
  | .launch dcm t =>
      let (cron, tmp) := getCronFromDCMSettings t dcm s.tmp
      ⟨manageCronJob t cron s.tab, tmp⟩
  | .edit text => { s with tab := some text }

def after (steps : List Step) (s : State) : State := steps.foldl Step.run s

/-! ### What it is for -/

/-- The crontab as the manager means it: the entries of others, the jobs of its own, and the line of the
settings that is known. -/
structure Schedule where
  others : List Str
  jobs : List Str
  named : Option Str
  deriving DecidableEq

/-- A launch with settings goes by them, and one without by the line that is known. -/
def Schedule.cron (a : Schedule) (dcm : Option Str) : Str :=
  ((if dcm.isSome then dcm.bind dcmLine else a.named).map cronOf).getD []

/-- The line of new settings is known from then on. -/
def Schedule.learn (t : Tools) (dcm : Option Str) (a : Schedule) : Schedule :=
  { a with named := if t.tmpFile then (dcm.bind dcmLine).or a.named else a.named }

/-- The entry takes the place of the jobs there are. The others are lost with an export that fails. -/
def Schedule.install (t : Tools) (entry : Str) (a : Schedule) : Schedule :=
  let exports := t.pipe && t.tempFileOut
  if (exports || t.emptyFile) && t.cronFile && t.installs then
    { a with others := if exports then a.others else [], jobs := [entry] }
  else a

def Schedule.step (a : Schedule) : Step → Schedule
  | .launch dcm t =>
      match CronJob.manageCronJob false (a.cron dcm) with
      | none => a.learn t dcm
      | some entry => (a.learn t dcm).install t entry
  | .edit text =>
      { a with
        others := (getLines text).filter fun line => !isJob line
        jobs := (getLines text).filter isJob }

def scheduleAfter (steps : List Step) (a : Schedule) : Schedule := steps.foldl Schedule.step a

/-- The crontab is made of complete lines, those of the manager and those of others. -/
structure Shows (s : State) (a : Schedule) : Prop where
  tab : ∃ lines, s.tab = some (unlines lines) ∧ (∀ line ∈ lines, Clean line) ∧
    (lines.filter fun line => !isJob line) = a.others ∧ lines.filter isJob = a.jobs
  tmp : s.tmp.bind dcmLine = a.named

/-- The two programs do what they are documented to do. -/
structure Tools.Works (t : Tools) : Prop where
  listing : ∀ text, t.listing (some text) = text
  sed : ∀ lines, (∀ line ∈ lines, Clean line) →
    t.sed (unlines lines) = unlines (lines.filter fun line => !isJob line)

/-- Every launch has working tools, and every other program installs complete lines. -/
def Orderly : Step → Prop
  | .launch _ t => t.Works
  | .edit text => ∃ lines, text = unlines lines ∧ ∀ line ∈ lines, Clean line

/-! ### The export -/

theorem fgets_prefix (size : Nat) (text : Str) : fgets size text <+: text := by
  have hroom : fgets size text <+: text.take (size - 1) := by
    conv_rhs => rw [← List.takeWhile_append_dropWhile (p := (· != '\n')) (l := text.take (size - 1))]
    exact (List.prefix_append_right_inj _).mpr (List.take_prefix _ _)
  exact hroom.trans (List.take_prefix _ _)

/-- A buffer of two bytes or more takes something from a text that is not at its end. -/
theorem fgets_ne_nil {size : Nat} (hsize : 2 ≤ size) {text : Str} (h : text ≠ []) :
    fgets size text ≠ [] := by
  obtain ⟨c, rest, rfl⟩ := List.exists_cons_of_ne_nil h
  obtain ⟨room, hroom⟩ : ∃ n, size - 1 = n + 1 := ⟨size - 2, by omega⟩
  rw [fgets, hroom, List.take_succ_cons]
  cases hc : (c != '\n') with
  | true =>
      rw [List.takeWhile_cons, hc, if_pos rfl, List.cons_append]
      exact List.cons_ne_nil _ _
  | false =>
      rw [List.takeWhile_cons, List.dropWhile_cons, hc, if_neg Bool.false_ne_true,
        if_neg Bool.false_ne_true, List.nil_append, List.take_succ_cons]
      exact List.cons_ne_nil _ _

/-- The loop copies the text. -/
theorem flatten_readAll {size : Nat} (hsize : 2 ≤ size) (passes : Nat) {text : Str}
    (hpasses : text.length ≤ passes) : (readAll size passes text).flatten = text := by
  induction passes generalizing text with
  | zero => rw [List.length_eq_zero_iff.mp (by omega : text.length = 0)]; rfl
  | succ passes ih =>
      rw [readAll]
      split
      next h => rw [h]; rfl
      next h =>
        have hpos : 0 < (fgets size text).length := List.length_pos_iff.mpr (fgets_ne_nil hsize h)
        obtain ⟨rest, hrest⟩ := fgets_prefix size text
        generalize fgets size text = piece at hpos hrest ⊢
        have hdrop : text.drop piece.length = rest := by rw [← hrest, List.drop_left]
        have hlen : piece.length + rest.length = text.length := by rw [← hrest, List.length_append]
        rw [List.flatten_cons, hdrop, ih (by omega), hrest]

/-- Without NULs the C strings are the buffers. -/
theorem copied_eq {text : Str} (h : Char.ofNat 0 ∉ text) : copied text = text := by
  have hflatten := flatten_readAll (by decide : 2 ≤ 1024) text.length le_rfl
  have hpieces : ∀ piece ∈ readAll 1024 text.length text, cStr piece = piece := by
    intro piece hpiece
    apply cStr_of_not_mem
    intro hmem
    apply h
    rw [← hflatten]
    exact List.mem_flatten_of_mem hpiece hmem
  calc copied text
      = (readAll 1024 text.length text).flatMap id := List.flatMap_congr hpieces
    _ = (readAll 1024 text.length text).flatten := List.flatMap_id
    _ = text := hflatten

/-! ### The lines -/

theorem unlines_append (lines rest : List Str) : unlines (lines ++ rest) = unlines lines ++ unlines rest :=
  List.flatMap_append

theorem getLines_unlines {lines : List Str} (h : ∀ line ∈ lines, Clean line) :
    getLines (unlines lines) = lines := getLines_flatMap fun line hline => (h line hline).1

theorem nulFree_unlines {lines : List Str} (h : ∀ line ∈ lines, Clean line) :
    Char.ofNat 0 ∉ unlines lines := by
  intro hmem
  obtain ⟨line, hline, hc⟩ := List.mem_flatMap.mp hmem
  rcases List.mem_append.mp hc with hc | hc
  · exact (h line hline).2 hc
  · cases List.mem_singleton.mp hc

/-- A digit or a sign. -/
theorem clean_adjustedPart (part : Str) (value : Int) : Clean (adjustedPart part value) := by
  have hdigits : ∀ n : Nat, Clean n.repr.toList := by
    intro n
    rw [Nat.toList_repr]
    have hdigit : ∀ c ∈ Nat.toDigits 10 n, c.isDigit = true := fun _ =>
      Nat.isDigit_of_mem_toDigits (by decide) (by decide)
    constructor
    · intro hmem
      exact absurd (hdigit _ hmem) (by decide)
    · intro hmem
      exact absurd (hdigit _ hmem) (by decide)
  rw [adjustedPart]
  split
  · constructor
    · decide
    · decide
  · rw [Int.toString_eq_repr, Int.repr_eq_if]
    split
    · exact hdigits _
    · rw [String.toList_append]
      obtain ⟨hline, hnul⟩ := hdigits (-value).toNat
      constructor
      · intro hmem
        rcases List.mem_append.mp hmem with hmem | hmem
        · exact absurd hmem (by decide)
        · exact hline hmem
      · intro hmem
        rcases List.mem_append.mp hmem with hmem | hmem
        · exact absurd hmem (by decide)
        · exact hnul hmem

theorem Clean.append {text rest : Str} (htext : Clean text) (hrest : Clean rest) : Clean (text ++ rest) := by
  constructor
  · intro hmem
    exact (List.mem_append.mp hmem).elim htext.1 hrest.1
  · intro hmem
    exact (List.mem_append.mp hmem).elim htext.2 hrest.2

theorem clean_intercalate {parts : List Str} (h : ∀ part ∈ parts, Clean part) :
    Clean ([' '].intercalate parts) := by
  induction parts with
  | nil => exact ⟨List.not_mem_nil, List.not_mem_nil⟩
  | cons part parts ih =>
      have hpart : Clean part := h part List.mem_cons_self
      cases parts with
      | nil =>
          rw [List.intercalate_singleton]
          exact hpart
      | cons part' parts =>
          have hspace : Clean [' '] := ⟨by decide, by decide⟩
          rw [List.intercalate_cons_cons]
          exact (hpart.append hspace).append (ih fun part hmem => h part (List.mem_cons_of_mem _ hmem))

/-- The entry of any cron string that has five components. -/
theorem entry_of_manageCronJob {cron entry : Str} (h : CronJob.manageCronJob false cron = some entry) :
    Clean entry ∧ isJob entry = true := by
  rw [CronJob.manageCronJob] at h
  split at h
  · cases h
  · obtain rfl := Option.some.inj h
    constructor
    · have hcommand : Clean (commandOf false) := ⟨by decide, by decide⟩
      apply Clean.append _ hcommand
      apply clean_intercalate
      intro part hpart
      obtain ⟨i, hi, rfl⟩ := List.mem_iff_getElem.mp hpart
      rw [List.getElem_zipWith]
      exact clean_adjustedPart _ _
    · have hcommand : contains (commandOf false) "rfcMgr".toList = true :=
        contains_toList " /usr/bin/" " >> /rdklogs/logs/dcmrfc.log.0 2>&1" (by simp)
      have hentry : "rfcMgr".toList <:+: adjustedCron ((words cron).take 5) ++ commandOf false :=
        (of_decide_eq_true hcommand).trans (List.suffix_append _ _).isInfix
      rw [isJob, contains, decide_eq_true hentry, Bool.true_or]

/-! ### One launch -/

/-- The line that is kept is the one that is found in what is kept. -/
theorem dcmLine_kept {text line : Str} (h : dcmLine text = some line) :
    dcmLine (line ++ ['\n']) = some line := by
  have hline : '\n' ∉ line := not_mem_of_mem_getLines (List.mem_of_find?_eq_some h)
  have hsearch : contains line searchString = true :=
    List.find?_some (p := fun line => contains line searchString) h
  rw [dcmLine, getLines_cons hline]
  exact List.find?_cons_of_pos (p := fun line => contains line searchString) hsearch

theorem getCronFromDCMSettings_eq (t : Tools) (dcm : Option Str) {tmp : Option Str} {a : Schedule}
    (h : tmp.bind dcmLine = a.named) :
    (getCronFromDCMSettings t dcm tmp).1 = a.cron dcm ∧
      (getCronFromDCMSettings t dcm tmp).2.bind dcmLine = (a.learn t dcm).named := by
  cases dcm with
  | none =>
      rw [Schedule.cron, Schedule.learn, ← h]
      constructor
      · rfl
      · exact (ite_self _).symm
  | some text =>
      rw [getCronFromDCMSettings, Schedule.cron, Schedule.learn]
      cases hfound : dcmLine text with
      | none =>
          simp only [Option.bind_some, hfound, ← h]
          exact ⟨rfl, (ite_self _).symm⟩
      | some line =>
          simp only [Option.bind_some, hfound]
          refine ⟨rfl, ?_⟩
          cases t.tmpFile with
          | true => exact dcmLine_kept hfound
          | false => exact h

section Launch

variable {t : Tools} (hworks : t.Works) {lines : List Str} (hlines : ∀ line ∈ lines, Clean line)
include hworks hlines

/-- What the temporary file has: all the lines, or none when the export fails. -/
theorem exportCrontab_unlines : exportCrontab t (some (unlines lines)) =
    if t.pipe && t.tempFileOut || t.emptyFile then
      some (unlines (if t.pipe && t.tempFileOut then lines else []))
    else none := by
  rw [exportCrontab, hworks.listing, copied_eq (nulFree_unlines hlines)]
  cases t.pipe && t.tempFileOut with
  | true => rfl
  | false => rfl

theorem rewrite_unlines (cronEntry : Str) : rewrite t cronEntry (some (unlines lines)) =
    some (unlines (if (t.pipe && t.tempFileOut || t.emptyFile) && t.cronFile && t.installs then
      ((if t.pipe && t.tempFileOut then lines else []).filter fun line => !isJob line) ++ [cronEntry]
    else lines)) := by
  have hsed : ∀ kept, (∀ line ∈ kept, Clean line) →
      t.sed (unlines kept) ++ (cronEntry ++ ['\n']) =
        unlines ((kept.filter fun line => !isJob line) ++ [cronEntry]) := by
    intro kept hkept
    rw [hworks.sed kept hkept, unlines_append, unlines, unlines, List.flatMap_singleton]
  have hkept : ∀ line ∈ (if t.pipe && t.tempFileOut then lines else []), Clean line := by
    split
    · exact hlines
    · exact List.forall_mem_nil _
  rw [rewrite, exportCrontab_unlines hworks hlines]
  cases t.pipe && t.tempFileOut || t.emptyFile with
  | false => rfl
  | true =>
      rw [if_pos rfl, Bool.true_and]
      simp only [hsed _ hkept]
      cases t.cronFile && t.installs with
      | true => rfl
      | false => rfl

end Launch

/-- The lines of others, and the entry behind them. -/
theorem filter_rewritten (lines : List Str) {entry : Str} (hjob : isJob entry = true) :
    let rewritten := (lines.filter fun line => !isJob line) ++ [entry]
    (rewritten.filter fun line => !isJob line) = (lines.filter fun line => !isJob line) ∧
      rewritten.filter isJob = [entry] := by
  constructor
  · rw [List.filter_append, List.filter_filter, List.filter_cons_of_neg (by simp [hjob]),
      List.filter_nil, List.append_nil]
    simp only [Bool.and_self]
  · rw [List.filter_append, List.filter_filter, List.filter_cons_of_pos hjob, List.filter_nil]
    simp only [Bool.and_not_self, List.filter_false, List.nil_append]

theorem Shows.install {s : State} {a : Schedule} (h : Shows s a) {t : Tools} (hworks : t.Works)
    {cron entry : Str} (hentry : CronJob.manageCronJob false cron = some entry) :
    Shows { s with tab := rewrite t entry s.tab } (a.install t entry) := by
  obtain ⟨⟨lines, htab, hlines, hothers, hjobs⟩, htmp⟩ := h
  obtain ⟨hclean, hjob⟩ := entry_of_manageCronJob hentry
  rw [htab, rewrite_unlines hworks hlines, Schedule.install]
  split
  · have hkept : ∀ line ∈ (if t.pipe && t.tempFileOut then lines else []), Clean line := by
      split
      · exact hlines
      · exact List.forall_mem_nil _
    obtain ⟨hfiltered, hentries⟩ := filter_rewritten
      (if t.pipe && t.tempFileOut then lines else []) hjob
    refine ⟨⟨_, rfl, ?_, ?_, hentries⟩, htmp⟩
    · intro line hline
      rcases List.mem_append.mp hline with hline | hline
      · exact hkept line (List.mem_of_mem_filter hline)
      · rwa [List.mem_singleton.mp hline]
    · rw [hfiltered, ← hothers]
      cases t.pipe && t.tempFileOut with
      | true => rfl
      | false => rfl
  · exact ⟨⟨lines, rfl, hlines, hothers, hjobs⟩, htmp⟩

theorem Shows.launch {s : State} {a : Schedule} (h : Shows s a) (dcm : Option Str) {t : Tools}
    (hworks : t.Works) : Shows ((Step.launch dcm t).run s) (a.step (.launch dcm t)) := by
  obtain ⟨hcron, hnamed⟩ := getCronFromDCMSettings_eq t dcm h.tmp
  have hlearned : Shows ⟨s.tab, (getCronFromDCMSettings t dcm s.tmp).2⟩ (a.learn t dcm) := by
    constructor
    · exact h.tab
    · exact hnamed
  rw [Step.run, Schedule.step]
  simp only [manageCronJob, hcron]
  cases hentry : CronJob.manageCronJob false (a.cron dcm) with
  | none => exact hlearned
  | some entry => exact hlearned.install hworks hentry

theorem Shows.edit {s : State} {a : Schedule} (h : Shows s a) {text : Str} (horderly : Orderly (.edit text)) :
    Shows ((Step.edit text).run s) (a.step (.edit text)) := by
  obtain ⟨lines, rfl, hlines⟩ := horderly
  constructor
  · refine ⟨lines, rfl, hlines, ?_, ?_⟩
    · rw [Schedule.step, getLines_unlines hlines]
    · rw [Schedule.step, getLines_unlines hlines]
  · exact h.tmp

/-! ### Any number of launches -/

/-- **The crontab over any run of launches and of installations by others.** Each launch puts its entry in
the place of the jobs of the manager, and the cron string is known from one launch to the next. -/
theorem shows_after {steps : List Step} (horderly : ∀ step ∈ steps, Orderly step) {s : State}
    {a : Schedule} (h : Shows s a) : Shows (after steps s) (scheduleAfter steps a) := by
  induction steps generalizing s a with
  | nil => exact h
  | cons step steps ih =>
      have hrest := fun later hlater => horderly later (List.mem_cons_of_mem _ hlater)
      have hstep := horderly step List.mem_cons_self
      cases step with
      | launch dcm t => exact ih hrest (h.launch dcm hstep)
      | edit text => exact ih hrest (h.edit hstep)

/-! A launch with settings, a program that adds a line of its own, and a launch without settings. -/

def allWell : Tools where
  pipe := true
  listing tab := tab.getD "crontab: no crontab for root\n".toList
  tempFileOut := true
  emptyFile := true
  cronFile := true
  sed text := unlines ((getLines text).filter fun line => !isJob line)
  installs := true
  tmpFile := true

theorem allWell_works : allWell.Works where
  listing _ := rfl
  sed lines hlines := by
    change unlines ((getLines (unlines lines)).filter _) = _
    rw [getLines_unlines hlines]

def settings : Str := "urn:settings:CheckSchedule:cron=30 2 * * *".toList

def jobAt227 : Str := "27 2 * * * /usr/bin/rfcMgr >> /rdklogs/logs/dcmrfc.log.0 2>&1".toList

def backup : Str := "0 4 * * * /usr/bin/backup".toList

def twoLaunches : List Step :=
  [.launch (some (unlines [settings])) allWell, .edit (unlines [jobAt227, backup]), .launch none allWell]

theorem shows_after_twoLaunches :
    Shows (after twoLaunches ⟨some [], none⟩) ⟨[backup], [jobAt227], some settings⟩ := by
  have horderly : ∀ step ∈ twoLaunches, Orderly step := by
    simp only [twoLaunches, List.forall_mem_cons]
    refine ⟨allWell_works, ⟨_, rfl, ?_⟩, allWell_works, List.forall_mem_nil _⟩
    simp only [List.forall_mem_cons]
    exact ⟨⟨by decide, by decide⟩, ⟨by decide, by decide⟩, List.forall_mem_nil _⟩
  have hfirst : Shows ⟨some [], none⟩ ⟨[], [], none⟩ :=
    ⟨⟨[], rfl, List.forall_mem_nil _, rfl, rfl⟩, rfl⟩
  have hschedule : scheduleAfter twoLaunches ⟨[], [], none⟩ =
      ⟨[backup], [jobAt227], some settings⟩ := by decide +kernel
  rw [← hschedule]
  exact shows_after horderly hfirst

end RfcMgr.Crontab
