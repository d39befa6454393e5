import RfcMgr.Cron
import RfcMgr.IntegerParams

/-! The crontab entry that `manageCronJob` makes of the cron string of the DCM settings. -/

namespace RfcMgr.CronJob

open Calendar Cron Rdkb

/-- What `>>` takes out of a stream until it fails. -/
def words (text : Str) : List Str := (text.splitOnP isSpace).filter (· ≠ [])

def star : Str := ['*']

def defaultValues : List Int := [0, 0, 1, 1, 0]

/-- A component that `std::stoi` throws on resets all of them. -/
def cronValuesOf (cronParts : List Str) : List Int :=
  ((cronParts.zip defaultValues).mapM fun (part, default) =>
    if part = star then some default else stoSigned 32 part).getD defaultValues

/-- Adjust time by 3 minutes. -/
def adjustValues : List Int → List Int
  | minute :: hour :: days =>
      if minute > 2 then (minute - 3) :: hour :: days
      else (minute + 57) :: (if hour = 0 then 23 else hour - 1) :: days
  | cronValues => cronValues

/-- A wildcard stays one. -/
def adjustedPart (part : Str) (value : Int) : Str := if part = star then star else (toString value).toList

def adjustedCron (cronParts : List Str) : Str :=
  [' '].intercalate (List.zipWith adjustedPart cronParts (adjustValues (cronValuesOf cronParts)))

/-- The camera entry omits the log redirect. -/
def commandOf (camera : Bool) : Str :=
  if camera then " /usr/bin/rfcMgr".toList
  else " /usr/bin/rfcMgr >> /rdklogs/logs/dcmrfc.log.0 2>&1".toList

/-- The line that is added to the crontab, unless there are not enough components. -/
def manageCronJob (camera : Bool) (cron : Str) : Option Str :=
  let cronParts := (words cron).take 5
  if cronParts.length < 5 then none else some (adjustedCron cronParts ++ commandOf camera)

/-! ### How cron reads a schedule -/

def fieldOf (low high : Nat) (text : Str) : Option (Field low high) :=
  if text = star then some .every
  else (digitsValue text).bind fun value =>
    if h : low ≤ value ∧ value ≤ high then some (.only value h.1 h.2) else none

def scheduleOf : List Str → Option Schedule
  | [minute, hour, dayOfMonth, month, dayOfWeek] => do
      let minute ← fieldOf 0 59 minute
      let hour ← fieldOf 0 23 hour
      let dayOfMonth ← fieldOf 1 31 dayOfMonth
      let month ← fieldOf 1 12 month
      let dayOfWeek ← fieldOf 0 7 dayOfWeek
      some ⟨minute, hour, dayOfMonth, month, dayOfWeek⟩
  | _ => none

/-- A string of five fields. -/
def cronSchedule (cron : Str) : Option Schedule := scheduleOf (words cron)

/-- Behind the five fields of an entry stands its command. -/
def entrySchedule (entry : Str) : Option Schedule := scheduleOf ((words entry).take 5)

/-- The entry fires three minutes ahead of the string. -/
def FiresEarlier (camera : Bool) (cron : Str) (schedule : Schedule) : Prop :=
  ∃ entry written, manageCronJob camera cron = some entry ∧ entrySchedule entry = some written ∧
    Precedes 3 written schedule

/-- The three minutes stay within the hour, or within the day when the hour is given; over midnight all
days are meant; or no day is. -/
def Adjustable (schedule : Schedule) : Prop :=
  schedule.NoDay ∨
    match schedule.minute, schedule.hour with
    | .only minute _ _, .only hour _ _ => 3 ≤ minute ∨ 1 ≤ hour ∨ schedule.EveryDay
    | .only minute _ _, .every => 3 ≤ minute ∨ schedule.EveryDay
    | .every, .only _ _ _ => False
    | .every, .every => schedule.EveryDay

/-! ### The schedule that is written -/

/-- The number of a field; a wildcard has the default. -/
def valueOf {low high : Nat} (default : Nat) : Field low high → Nat
  | .every => default
  | .only value _ _ => value

def adjustedMinute : Field 0 59 → Field 0 59
  | .every => .every
  | .only minute _ hhigh =>
      if h : 2 < minute then .only (minute - 3) (Nat.zero_le _) (by omega)
      else .only (minute + 57) (Nat.zero_le _) (by omega)

def hourBefore : Field 0 23 → Field 0 23
  | .every => .every
  | .only hour _ hhigh =>
      if hour = 0 then .only 23 (by decide) le_rfl else .only (hour - 1) (Nat.zero_le _) (by omega)

def adjusted (schedule : Schedule) : Schedule :=
  { schedule with
    minute := adjustedMinute schedule.minute
    hour := if 2 < valueOf 0 schedule.minute then schedule.hour else hourBefore schedule.hour }

theorem fieldOf_eq_some {low high : Nat} {part : Str} {field : Field low high}
    (h : fieldOf low high part = some field) :
    (part = star ∧ field = .every) ∨
      ∃ value hlow hhigh, part ≠ star ∧ digitsValue part = some value ∧
        field = .only value hlow hhigh := by
  unfold fieldOf at h
  split at h
  next hstar => exact Or.inl ⟨hstar, (Option.some.inj h).symm⟩
  next hstar =>
    obtain ⟨value, hvalue, hfield⟩ := Option.bind_eq_some_iff.mp h
    split at hfield
    next hrange => exact Or.inr ⟨value, hrange.1, hrange.2, hstar, hvalue, (Option.some.inj hfield).symm⟩
    next => cases hfield

/-- `std::stoi` reads what cron reads. -/
theorem stoi_of_fieldOf (default : Nat) {low high : Nat} {part : Str} {field : Field low high}
    (h : fieldOf low high part = some field) (hhigh : high < 2 ^ 31) :
    (if part = star then some (default : Int) else stoSigned 32 part) =
      some (valueOf default field : Int) := by
  obtain ⟨rfl, rfl⟩ | ⟨value, hlow, hvalueHigh, hstar, hvalue, rfl⟩ := fieldOf_eq_some h
  · exact if_pos rfl
  · rw [if_neg hstar]
    apply stoSigned_of_decimalOf (decimalOf_of_digits hvalue)
    · omega
    · change ((value : Nat) : Int) < 2 ^ 31
      omega

theorem digitsValue_star : digitsValue star = none := by decide

theorem toString_natCast (value : Nat) : (toString (value : Int)).toList = value.repr.toList := rfl

/-- A number that is printed is read back. -/
theorem fieldOf_adjustedPart {low high value : Nat} {part : Str} (hstar : part ≠ star)
    (hlow : low ≤ value) (hhigh : value ≤ high) :
    fieldOf low high (adjustedPart part value) = some (.only value hlow hhigh) := by
  have hne : value.repr.toList ≠ star := by
    intro heq
    have hvalue := digitsValue_repr value
    rw [heq, digitsValue_star] at hvalue
    cases hvalue
  rw [adjustedPart, if_neg hstar, toString_natCast, fieldOf, if_neg hne, digitsValue_repr,
    Option.bind_some, dif_pos ⟨hlow, hhigh⟩]

theorem fieldOf_adjustedPart_star {low high : Nat} (value : Int) :
    fieldOf low high (adjustedPart star value) = some .every := by
  rw [adjustedPart, if_pos rfl, fieldOf, if_pos rfl]

theorem fieldOf_adjustedPart_self {low high default : Nat} {part : Str} {field : Field low high}
    (h : fieldOf low high part = some field) :
    fieldOf low high (adjustedPart part (valueOf default field)) = some field := by
  obtain ⟨rfl, rfl⟩ | ⟨value, hlow, hhigh, hstar, -, rfl⟩ := fieldOf_eq_some h
  · exact fieldOf_adjustedPart_star _
  · exact fieldOf_adjustedPart hstar hlow hhigh

theorem fieldOf_adjustedMinute {part : Str} {field : Field 0 59} (h : fieldOf 0 59 part = some field) :
    fieldOf 0 59 (adjustedPart part ((if 2 < valueOf 0 field then valueOf 0 field - 3
      else valueOf 0 field + 57 : Nat) : Int)) = some (adjustedMinute field) := by
  obtain ⟨rfl, rfl⟩ | ⟨minute, hlow, hhigh, hstar, -, rfl⟩ := fieldOf_eq_some h
  · exact fieldOf_adjustedPart_star _
  · rw [valueOf, adjustedMinute]
    by_cases hminute : 2 < minute
    · rw [if_pos hminute, dif_pos hminute]
      exact fieldOf_adjustedPart hstar _ _
    · rw [if_neg hminute, dif_neg hminute]
      exact fieldOf_adjustedPart hstar _ _

theorem fieldOf_hourBefore {part : Str} {field : Field 0 23} (h : fieldOf 0 23 part = some field) :
    fieldOf 0 23 (adjustedPart part ((if valueOf 0 field = 0 then 23 else valueOf 0 field - 1 : Nat) :
      Int)) = some (hourBefore field) := by
  obtain ⟨rfl, rfl⟩ | ⟨hour, hlow, hhigh, hstar, -, rfl⟩ := fieldOf_eq_some h
  · exact fieldOf_adjustedPart_star _
  · rw [valueOf, hourBefore]
    by_cases hhour : hour = 0
    · rw [if_pos hhour, if_pos hhour]
      exact fieldOf_adjustedPart hstar _ _
    · rw [if_neg hhour, if_neg hhour]
      exact fieldOf_adjustedPart hstar _ _

theorem adjustValues_natCast (minute hour : Nat) (days : List Int) :
    adjustValues ((minute : Int) :: (hour : Int) :: days) =
      ((if 2 < minute then minute - 3 else minute + 57 : Nat) : Int) ::
        ((if 2 < minute then hour else if hour = 0 then 23 else hour - 1 : Nat) : Int) :: days := by
  rw [adjustValues]
  by_cases hminute : 2 < minute
  · rw [if_pos (by omega : (minute : Int) > 2), if_pos hminute, if_pos hminute]
    congr 1
    omega
  · rw [if_neg (by omega : ¬ (minute : Int) > 2), if_neg hminute, if_neg hminute]
    congr 1
    by_cases hhour : hour = 0
    · rw [if_pos (by omega : (hour : Int) = 0), if_pos hhour]
      rfl
    · rw [if_neg (by omega : ¬ (hour : Int) = 0), if_neg hhour]
      congr 1
      omega

/-! ### The fields of the entry -/

/-- A piece that `>>` does not break. -/
def IsWord (part : Str) : Prop := part ≠ [] ∧ ∀ c ∈ part, isSpace c = false

theorem isWord_adjustedPart (part : Str) (value : Nat) : IsWord (adjustedPart part value) := by
  rw [adjustedPart]
  split
  · refine ⟨List.cons_ne_nil _ _, ?_⟩
    intro c hc
    obtain rfl := List.mem_singleton.mp hc
    rfl
  · rw [toString_natCast]
    obtain ⟨⟨hne, hdigits⟩, -⟩ := digitsValue_eq_some.mp (digitsValue_repr value)
    exact ⟨hne, fun c hc => (not_sign_of_isDigit (hdigits c hc)).1⟩

theorem words_of_isWord {part : Str} (h : IsWord part) : words part = [part] := by
  rw [words, List.splitOnP_eq_singleton h.2, List.filter_cons_of_pos (by simpa using h.1),
    List.filter_nil]

theorem words_append (text rest : Str) : words (text ++ ' ' :: rest) = words text ++ words rest := by
  rw [words, List.splitOnP_append_cons text rest (by decide), List.filter_append]
  rfl

theorem words_intercalate (parts : List Str) (h : ∀ part ∈ parts, IsWord part) :
    words ([' '].intercalate parts) = parts := by
  induction parts with
  | nil => rfl
  | cons part parts ih =>
      cases parts with
      | nil =>
          rw [List.intercalate_singleton]
          exact words_of_isWord (h part List.mem_cons_self)
      | cons part' parts =>
          rw [List.intercalate_cons_cons, List.append_assoc, List.singleton_append, words_append,
            words_of_isWord (h part List.mem_cons_self),
            ih fun part hpart => h part (List.mem_cons_of_mem _ hpart)]
          rfl

/-- The command ends the last field. -/
theorem words_append_command (text : Str) (camera : Bool) :
    ∃ command, words (text ++ commandOf camera) = words text ++ command := by
  have hspace : ∃ rest, commandOf camera = ' ' :: rest := by
    cases camera with
    | false => exact ⟨_, rfl⟩
    | true => exact ⟨_, rfl⟩
  obtain ⟨rest, hrest⟩ := hspace
  exact ⟨words rest, by rw [hrest, words_append]⟩

theorem scheduleOf_eq_some {parts : List Str} {schedule : Schedule}
    (h : scheduleOf parts = some schedule) :
    ∃ minute hour dayOfMonth month dayOfWeek,
      parts = [minute, hour, dayOfMonth, month, dayOfWeek] ∧
      fieldOf 0 59 minute = some schedule.minute ∧ fieldOf 0 23 hour = some schedule.hour ∧
      fieldOf 1 31 dayOfMonth = some schedule.dayOfMonth ∧ fieldOf 1 12 month = some schedule.month ∧
      fieldOf 0 7 dayOfWeek = some schedule.dayOfWeek := by
  unfold scheduleOf at h
  split at h
  next minute hour dayOfMonth month dayOfWeek =>
    simp only [Option.bind_eq_bind, Option.bind_eq_some_iff] at h
    obtain ⟨minute', hminute, hour', hhour, day', hday, month', hmonth, week', hweek, heq⟩ := h
    obtain rfl := Option.some.inj heq
    exact ⟨_, _, _, _, _, rfl, hminute, hhour, hday, hmonth, hweek⟩
  next => cases h

section Entry

variable {minute hour dayOfMonth month dayOfWeek : Str} {schedule : Schedule}
  (hminute : fieldOf 0 59 minute = some schedule.minute)
  (hhour : fieldOf 0 23 hour = some schedule.hour)
  (hday : fieldOf 1 31 dayOfMonth = some schedule.dayOfMonth)
  (hmonth : fieldOf 1 12 month = some schedule.month)
  (hweek : fieldOf 0 7 dayOfWeek = some schedule.dayOfWeek)
include hminute hhour hday hmonth hweek

theorem cronValuesOf_eq : cronValuesOf [minute, hour, dayOfMonth, month, dayOfWeek] =
    [(valueOf 0 schedule.minute : Int), (valueOf 0 schedule.hour : Int),
      (valueOf 1 schedule.dayOfMonth : Int), (valueOf 1 schedule.month : Int),
      (valueOf 0 schedule.dayOfWeek : Int)] := by
  have hminuteValue := stoi_of_fieldOf 0 hminute (by decide)
  have hhourValue := stoi_of_fieldOf 0 hhour (by decide)
  have hdayValue := stoi_of_fieldOf 1 hday (by decide)
  have hmonthValue := stoi_of_fieldOf 1 hmonth (by decide)
  have hweekValue := stoi_of_fieldOf 0 hweek (by decide)
  simp only [Nat.cast_zero, Nat.cast_one] at hminuteValue hhourValue hdayValue hmonthValue hweekValue
  rw [cronValuesOf, defaultValues]
  simp only [List.zip_cons_cons, List.zip_nil_right, List.mapM_cons, List.mapM_nil, hminuteValue,
    hhourValue, hdayValue, hmonthValue, hweekValue]
  rfl

/-- The fields that are printed: five words, which cron reads as the adjusted schedule. -/
theorem scheduleOf_adjustedParts : ∃ parts,
    List.zipWith adjustedPart [minute, hour, dayOfMonth, month, dayOfWeek]
      (adjustValues (cronValuesOf [minute, hour, dayOfMonth, month, dayOfWeek])) = parts ∧
    (∀ part ∈ parts, IsWord part) ∧ parts.length = 5 ∧
    scheduleOf parts = some (adjusted schedule) := by
  have hhourField : fieldOf 0 23 (adjustedPart hour ((if 2 < valueOf 0 schedule.minute
      then valueOf 0 schedule.hour else if valueOf 0 schedule.hour = 0 then 23
      else valueOf 0 schedule.hour - 1 : Nat) : Int)) = some (adjusted schedule).hour := by
    rw [adjusted]
    split
    · exact fieldOf_adjustedPart_self hhour
    · exact fieldOf_hourBefore hhour
  rw [cronValuesOf_eq hminute hhour hday hmonth hweek, adjustValues_natCast]
  refine ⟨_, rfl, ?_, rfl, ?_⟩
  · simp only [List.zipWith_cons_cons, List.forall_mem_cons]
    exact ⟨isWord_adjustedPart .., isWord_adjustedPart .., isWord_adjustedPart ..,
      isWord_adjustedPart .., isWord_adjustedPart .., nofun⟩
  · change scheduleOf [_, _, _, _, _] = _
    rw [scheduleOf, fieldOf_adjustedMinute hminute, hhourField, fieldOf_adjustedPart_self hday,
      fieldOf_adjustedPart_self hmonth, fieldOf_adjustedPart_self hweek]
    rfl

end Entry

/-- **The entry of a well formed cron string**, as cron reads it. -/
theorem entrySchedule_of_cronSchedule {cron : Str} {schedule : Schedule}
    (h : cronSchedule cron = some schedule) (camera : Bool) :
    ∃ entry, manageCronJob camera cron = some entry ∧
      entrySchedule entry = some (adjusted schedule) := by
  obtain ⟨minute, hour, dayOfMonth, month, dayOfWeek, hwords, hminute, hhour, hday, hmonth, hweek⟩ :=
    scheduleOf_eq_some h
  obtain ⟨parts, hparts, hall, hlength, hschedule⟩ :=
    scheduleOf_adjustedParts hminute hhour hday hmonth hweek
  refine ⟨adjustedCron (words cron) ++ commandOf camera, ?_, ?_⟩
  · simp only [manageCronJob, hwords]
    rfl
  · obtain ⟨command, hcommand⟩ := words_append_command (adjustedCron (words cron)) camera
    rw [entrySchedule, hcommand, adjustedCron, hwords, hparts, words_intercalate parts hall, ← hlength,
      List.take_left, hschedule]

/-! ### When it fires -/

theorem onDay_adjusted (schedule : Schedule) (days : Nat) :
    (adjusted schedule).OnDay days ↔ schedule.OnDay days := Iff.rfl

theorem matches_hourBefore {field : Field 0 23} {n : Nat} (h : n < 24) :
    (hourBefore field).Matches n ↔ field.Matches ((n + 1) % 24) := by
  cases field with
  | every => exact Iff.rfl
  | only hour hlow hhigh =>
      rw [hourBefore]
      split
      · rw [Field.matches_only, Field.matches_only]
        omega
      · rw [Field.matches_only, Field.matches_only]
        omega

variable {schedule : Schedule} {minute : Nat} {hlow : 0 ≤ minute} {hhigh : minute ≤ 59}

theorem precedes_within_hour (hfield : schedule.minute = .only minute hlow hhigh)
    (h : 3 ≤ minute) : Precedes 3 (adjusted schedule) schedule := by
  have hmatches : ∀ t, (adjusted schedule).AtClock t ↔
      t % 60 = minute - 3 ∧ schedule.hour.Matches (t / 60 % 24) := by
    intro t
    rw [Schedule.AtClock, adjusted, hfield, adjustedMinute, dif_pos (by omega), valueOf,
      if_pos (by omega), Field.matches_only]
  apply Precedes.of_same_day (onDay_adjusted schedule)
  · intro t
    rw [hmatches, Schedule.AtClock, hfield, Field.matches_only]
    by_cases hat : t % 60 = minute - 3
    · have hhour : (t + 3) / 60 = t / 60 := by omega
      rw [hhour]
      exact and_congr_left fun _ => by omega
    · exact iff_of_false (fun h => hat h.1) (fun h => hat (by omega))
  · intro t hat
    have hminute := ((hmatches t).mp hat).1
    omega

/-- The clock of a schedule that goes to the hour before. -/
theorem atClock_hourBefore (hfield : schedule.minute = .only minute hlow hhigh) (h : minute < 3)
    (t : Nat) : (adjusted schedule).AtClock t ↔
      t % 60 = minute + 57 ∧ (hourBefore schedule.hour).Matches (t / 60 % 24) := by
  rw [Schedule.AtClock, adjusted, hfield, adjustedMinute, dif_neg (by omega), valueOf,
    if_neg (by omega), Field.matches_only]

theorem atClock_hourBefore_iff (hfield : schedule.minute = .only minute hlow hhigh) (h : minute < 3)
    (t : Nat) : (adjusted schedule).AtClock t ↔ schedule.AtClock (t + 3) := by
  rw [atClock_hourBefore hfield h, Schedule.AtClock, hfield, Field.matches_only,
    matches_hourBefore (Nat.mod_lt _ (by decide))]
  by_cases hat : t % 60 = minute + 57
  · have hhour : (t + 3) / 60 % 24 = (t / 60 % 24 + 1) % 24 := by omega
    rw [hhour]
    exact and_congr_left fun _ => by omega
  · exact iff_of_false (fun h => hat h.1) (fun h => hat (by omega))

/-- The hour given, and not the first of the day. -/
theorem precedes_within_day (hfield : schedule.minute = .only minute hlow hhigh) (h : minute < 3)
    {hour : Nat} {hlow' : 0 ≤ hour} {hhigh' : hour ≤ 23}
    (hhour : schedule.hour = .only hour hlow' hhigh') (hpos : 1 ≤ hour) :
    Precedes 3 (adjusted schedule) schedule := by
  apply Precedes.of_same_day (onDay_adjusted schedule) (atClock_hourBefore_iff hfield h)
  intro t hat
  have hbefore := ((atClock_hourBefore hfield h t).mp hat).2
  rw [hhour, hourBefore, if_neg (by omega), Field.matches_only] at hbefore
  omega

/-- The days that a shift over midnight leaves. -/
theorem all_or_none_iff : ((∀ days, schedule.OnDay days) ∨ ∀ days, ¬ schedule.OnDay days) ↔
    schedule.NoDay ∨ schedule.EveryDay := by
  rw [Schedule.onDay_all_iff, Schedule.onDay_none_iff, or_comm]

/-- The first hour of the day. -/
theorem precedes_over_midnight_iff (hfield : schedule.minute = .only minute hlow hhigh)
    (h : minute < 3) (hhour : schedule.hour.Matches 0) :
    Precedes 3 (adjusted schedule) schedule ↔ schedule.NoDay ∨ schedule.EveryDay := by
  have hat : (adjusted schedule).AtClock (1437 + minute) := by
    apply (atClock_hourBefore hfield h _).mpr
    refine ⟨by omega, (matches_hourBefore (by omega)).mpr ?_⟩
    have hmidnight : ((1437 + minute) / 60 % 24 + 1) % 24 = 0 := by omega
    rwa [hmidnight]
  rw [precedes_iff_of_next_day (onDay_adjusted schedule) (atClock_hourBefore_iff hfield h)
    _ (by omega) hat (by omega) (by decide), all_or_none_iff]

theorem precedes_every_minute_iff (hminute : schedule.minute = .every)
    (hhour : schedule.hour = .every) :
    Precedes 3 (adjusted schedule) schedule ↔ schedule.NoDay ∨ schedule.EveryDay := by
  have hadjusted : ∀ t, (adjusted schedule).AtClock t := by
    intro t
    rw [Schedule.AtClock, adjusted, hminute, hhour, adjustedMinute, valueOf, if_neg (by decide)]
    exact ⟨trivial, trivial⟩
  have halways : ∀ t, schedule.AtClock t := by
    intro t
    rw [Schedule.AtClock, hminute, hhour]
    exact ⟨trivial, trivial⟩
  rw [precedes_iff_of_next_day (onDay_adjusted schedule)
    (fun t => iff_of_true (hadjusted t) (halways _)) 1437 (by decide) (hadjusted _) (by decide) (by decide),
    all_or_none_iff]

/-- A wildcard minute counts as 0, so that a given hour is moved as a whole. -/
theorem precedes_every_minute_of_hour_iff (hminute : schedule.minute = .every) {hour : Nat}
    {hlow' : 0 ≤ hour} {hhigh' : hour ≤ 23} (hhour : schedule.hour = .only hour hlow' hhigh') :
    Precedes 3 (adjusted schedule) schedule ↔ schedule.NoDay := by
  have hbefore : ∃ n < 24, n ≠ hour ∧ (hourBefore schedule.hour).Matches n := by
    rw [hhour, hourBefore]
    split
    next hzero => exact ⟨23, by decide, by omega, rfl⟩
    next hzero => exact ⟨hour - 1, by omega, by omega, rfl⟩
  obtain ⟨n, hlt, hne, hmatches⟩ := hbefore
  have hat : (adjusted schedule).AtClock (n * 60) := by
    rw [Schedule.AtClock, adjusted, hminute, adjustedMinute, valueOf, if_neg (by decide)]
    refine ⟨trivial, ?_⟩
    have hclock : n * 60 / 60 % 24 = n := by omega
    rwa [hclock]
  have hwrong : ¬ schedule.AtClock (n * 60 + 3) := by
    rintro ⟨-, hlater⟩
    rw [hhour, Field.matches_only] at hlater
    omega
  rw [precedes_iff_of_wrong_clock (onDay_adjusted schedule) (by omega) hat hwrong,
    Schedule.onDay_none_iff]

theorem precedes_adjusted_iff (schedule : Schedule) :
    Precedes 3 (adjusted schedule) schedule ↔ Adjustable schedule := by
  unfold Adjustable
  cases hminute : schedule.minute with
  | every =>
      cases hhour : schedule.hour with
      | every => exact precedes_every_minute_iff hminute hhour
      | only hour hlow hhigh =>
          rw [precedes_every_minute_of_hour_iff hminute hhour]
          exact (or_false _).symm.to_iff
  | only minute hlow hhigh =>
      by_cases hlate : 3 ≤ minute
      · have hprecedes := precedes_within_hour hminute hlate
        cases hhour : schedule.hour with
        | every => exact iff_of_true hprecedes (Or.inr (Or.inl hlate))
        | only hour hlow' hhigh' => exact iff_of_true hprecedes (Or.inr (Or.inl hlate))
      · have hearly : minute < 3 := not_le.mp hlate
        cases hhour : schedule.hour with
        | every =>
            rw [precedes_over_midnight_iff hminute hearly (by rw [hhour]; trivial)]
            exact or_congr_right (or_iff_right hlate).symm
        | only hour hlow' hhigh' =>
            by_cases hpos : 1 ≤ hour
            · exact iff_of_true (precedes_within_day hminute hearly hhour hpos)
                (Or.inr (Or.inr (Or.inl hpos)))
            · rw [precedes_over_midnight_iff hminute hearly (by
                rw [hhour, Field.matches_only]
                omega)]
              apply or_congr_right
              exact ((or_iff_right hlate).trans (or_iff_right hpos)).symm

/-- The entry of a cron string is one, and it has the adjusted schedule. -/
theorem firesEarlier_iff (camera : Bool) {cron : Str} (h : cronSchedule cron = some schedule) :
    FiresEarlier camera cron schedule ↔ Precedes 3 (adjusted schedule) schedule := by
  obtain ⟨entry, hentry, hwritten⟩ := entrySchedule_of_cronSchedule h camera
  constructor
  · rintro ⟨entry', written, hentry', hwritten', hprecedes⟩
    rw [hentry] at hentry'
    obtain rfl := Option.some.inj hentry'
    rw [hwritten] at hwritten'
    obtain rfl := Option.some.inj hwritten'
    exact hprecedes
  · exact fun hprecedes => ⟨entry, adjusted schedule, hentry, hwritten, hprecedes⟩

/-- **When the entry fires three minutes ahead of the cron string.** -/
theorem manageCronJob_iff (camera : Bool) {cron : Str} {schedule : Schedule}
    (h : cronSchedule cron = some schedule) :
    FiresEarlier camera cron schedule ↔ Adjustable schedule :=
  (firesEarlier_iff camera h).trans (precedes_adjusted_iff schedule)

/-- Half past two, every day. -/
def halfPastTwo : Schedule :=
  ⟨.only 30 (by decide) (by decide), .only 2 (by decide) (by decide), .every, .every, .every⟩

theorem manageCronJob_iff_halfPastTwo : FiresEarlier false "30 2 * * *".toList halfPastTwo :=
  (manageCronJob_iff false rfl).mpr (Or.inr (Or.inl (by decide)))

example : manageCronJob false "30 2 * * *".toList =
    some "27 2 * * * /usr/bin/rfcMgr >> /rdklogs/logs/dcmrfc.log.0 2>&1".toList := by decide +kernel

example : manageCronJob true "1 0 * * *".toList = some "58 23 * * * /usr/bin/rfcMgr".toList := by
  decide +kernel

/-- Midnight at the first of the month. -/
def firstOfMonth : Schedule :=
  ⟨.only 0 (by decide) (by decide), .only 0 (by decide) (by decide),
    .only 1 (by decide) (by decide), .every, .every⟩

/-- The entry is `57 23 1 * *`, late on that day and not on the day before. -/
theorem not_firesEarlier_firstOfMonth : cronSchedule "0 0 1 * *".toList = some firstOfMonth ∧
    ¬ FiresEarlier false "0 0 1 * *".toList firstOfMonth := by
  have hschedule : cronSchedule "0 0 1 * *".toList = some firstOfMonth := rfl
  refine ⟨hschedule, ?_⟩
  rw [firesEarlier_iff false hschedule]
  intro hprecedes
  -- 1970-01-01 at 23:57
  have hfires : (adjusted firstOfMonth).Fires 1437 := ⟨⟨rfl, rfl⟩, trivial, rfl⟩
  have hday : (dateOf 1).day = 1 := ((hprecedes 1437).mp hfires).2.2
  exact absurd hday (by decide)

end RfcMgr.CronJob
