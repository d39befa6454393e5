import RfcMgr.Calendar

/-! Cron schedules whose fields are `*` or one number, and when one of them fires a fixed time ahead of
another. Instants are the minutes from the epoch of the calendar on. -/

namespace Cron

open Calendar

/-- `*`, or a number of the field's range. -/
inductive Field (low high : Nat) where
  | every
  | only (value : Nat) (hlow : low ≤ value) (hhigh : value ≤ high)
  deriving DecidableEq

def Field.Matches {low high : Nat} : Field low high → Nat → Prop
  | .every, _ => True
  | .only value _ _, n => n = value

@[simp] theorem Field.matches_every {low high : Nat} (n : Nat) :
    (Field.every : Field low high).Matches n := trivial

@[simp] theorem Field.matches_only {low high value n : Nat} {hlow : low ≤ value}
    {hhigh : value ≤ high} : (Field.only value hlow hhigh).Matches n ↔ n = value := Iff.rfl

theorem Field.exists_matches {low high : Nat} (h : low ≤ high) (field : Field low high) :
    ∃ n, low ≤ n ∧ n ≤ high ∧ field.Matches n := by
  cases field with
  | every => exact ⟨low, le_rfl, h, trivial⟩
  | only value hlow hhigh => exact ⟨value, hlow, hhigh, rfl⟩

/-- Sunday is 0 and 7. -/
structure Schedule where
  minute : Field 0 59
  hour : Field 0 23
  dayOfMonth : Field 1 31
  month : Field 1 12
  dayOfWeek : Field 0 7

namespace Schedule

variable (schedule : Schedule)

/-- Of a day of the month and a weekday that are both given, one is enough. -/
def OnDay (days : Nat) : Prop :=
  schedule.month.Matches (dateOf days).month ∧
    match schedule.dayOfMonth, schedule.dayOfWeek with
    | .every, .every => True
    | .only day _ _, .every => (dateOf days).day = day
    | .every, .only day _ _ => weekday days = day % 7
    | .only day _ _, .only day' _ _ => (dateOf days).day = day ∨ weekday days = day' % 7

def AtClock (t : Nat) : Prop := schedule.minute.Matches (t % 60) ∧ schedule.hour.Matches (t / 60 % 24)

def Fires (t : Nat) : Prop := schedule.AtClock t ∧ schedule.OnDay (t / 1440)

/-- The three fields that choose the day are `*`. -/
def EveryDay : Prop :=
  schedule.dayOfMonth = .every ∧ schedule.month = .every ∧ schedule.dayOfWeek = .every

/-- A day of the month that the month never has. -/
def NoDay : Prop :=
  match schedule.dayOfMonth, schedule.month, schedule.dayOfWeek with
  | .only day _ _, .only month _ _, .every => daysInMonth 2000 month < day
  | _, _, _ => False

end Schedule

/-- `earlier` fires exactly when `later` fires `ahead` minutes behind. -/
def Precedes (ahead : Nat) (earlier later : Schedule) : Prop :=
  ∀ t, earlier.Fires t ↔ later.Fires (t + ahead)

section Days

/-- A leap year has the longest months. -/
theorem daysInMonth_le (year month : Nat) : daysInMonth year month ≤ daysInMonth 2000 month := by
  unfold daysInMonth
  split
  · rw [if_pos (by decide : IsLeap 2000)]
    split
    · exact le_rfl
    · decide
  · exact le_rfl
  · exact le_rfl
  · exact le_rfl
  · exact le_rfl
  · exact le_rfl

variable {schedule : Schedule}

theorem Schedule.EveryDay.onDay (h : schedule.EveryDay) (days : Nat) : schedule.OnDay days := by
  obtain ⟨hday, hmonth, hweek⟩ := h
  rw [OnDay, hday, hmonth, hweek]
  exact ⟨trivial, trivial⟩

/-- The first days of 1970 and the first of its February leave nothing but `*`. -/
theorem Schedule.onDay_all_iff : (∀ days, schedule.OnDay days) ↔ schedule.EveryDay := by
  constructor
  · intro h
    have hdates : (dateOf 0).day = 1 ∧ (dateOf 1).day = 2 ∧ (dateOf 2).day = 3 ∧
        (dateOf 0).month = 1 ∧ (dateOf 31).month = 2 := ⟨rfl, rfl, rfl, rfl, rfl⟩
    obtain ⟨hfirst, hsecond, hthird, hjanuary, hfebruary⟩ := hdates
    have hmonth : schedule.month = .every := by
      have h₀ := (h 0).1
      have h₃₁ := (h 31).1
      cases hfield : schedule.month with
      | every => rfl
      | only month hlow hhigh =>
          rw [hfield, Field.matches_only] at h₀ h₃₁
          omega
    have h₀ := (h 0).2
    have h₁ := (h 1).2
    have h₂ := (h 2).2
    simp only [hfirst, hsecond, hthird, weekday] at h₀ h₁ h₂
    cases hday : schedule.dayOfMonth with
    | every =>
        cases hweek : schedule.dayOfWeek with
        | every => exact ⟨hday, hmonth, hweek⟩
        | only day hlow hhigh =>
            simp only [hday, hweek] at h₀ h₁
            omega
    | only day hlow hhigh =>
        cases hweek : schedule.dayOfWeek with
        | every =>
            simp only [hday, hweek] at h₀ h₁
            omega
        | only day' hlow' hhigh' =>
            simp only [hday, hweek] at h₀ h₁ h₂
            omega
  · exact fun h days => h.onDay days

theorem Schedule.NoDay.not_onDay (h : schedule.NoDay) (days : Nat) : ¬ schedule.OnDay days := by
  rintro ⟨hmonth, hday⟩
  unfold NoDay at h
  split at h
  next day _ _ month _ _ hdayField hmonthField hweekField =>
    rw [hdayField, hweekField] at hday
    rw [hmonthField, Field.matches_only] at hmonth
    change (dateOf days).day = day at hday
    have hlast := (dateOf days).day_le
    have hlongest := daysInMonth_le (dateOf days).year month
    rw [hmonth] at hlast
    omega
  · exact h

/-- A weekday comes in the first week of every month. -/
theorem exists_weekday_of_month {month wanted : Nat} (hpos : 1 ≤ month) (hle : month ≤ 12)
    (h : wanted < 7) : ∃ days, (dateOf days).month = month ∧ weekday days = wanted := by
  obtain ⟨first, hfirst⟩ := exists_firstOf le_rfl hpos hle
  obtain ⟨passed, hpassed, hweekday⟩ := exists_weekday first h
  have hmany : 28 ≤ daysInMonth 1970 month := by
    unfold daysInMonth
    split
    · decide
    all_goals decide
  exact ⟨_, (dateOf_add hfirst passed (by omega)).2.1, hweekday⟩

theorem exists_day_of_month {month day : Nat} (hpos : 1 ≤ month) (hle : month ≤ 12) (hday : 1 ≤ day)
    (h : day ≤ daysInMonth 2000 month) :
    ∃ days, (dateOf days).month = month ∧ (dateOf days).day = day := by
  have hyear : 1970 ≤ 2000 := by decide
  obtain ⟨days, hdays⟩ := @exists_dateOf ⟨2000, month, day, hpos, hle, hday, h⟩ hyear
  exact ⟨days, by rw [hdays], by rw [hdays]⟩

/-- Only a day of the month that never comes keeps a schedule from every day. -/
theorem Schedule.exists_onDay (h : ¬ schedule.NoDay) : ∃ days, schedule.OnDay days := by
  obtain ⟨month, hpos, hle, hmonth⟩ := schedule.month.exists_matches (by decide)
  cases hweek : schedule.dayOfWeek with
  | only wanted hlow hhigh =>
      obtain ⟨days, hdays, hweekday⟩ := exists_weekday_of_month hpos hle
        (Nat.mod_lt wanted (by decide : 0 < 7))
      refine ⟨days, by rwa [hdays], ?_⟩
      rw [hweek]
      cases schedule.dayOfMonth with
      | every => exact hweekday
      | only day _ _ => exact Or.inr hweekday
  | every =>
      cases hdayField : schedule.dayOfMonth with
      | every =>
          obtain ⟨days, hdays⟩ := exists_firstOf le_rfl hpos hle
          refine ⟨days, ?_, ?_⟩
          · rw [hdays]
            exact hmonth
          · rw [hdayField, hweek]
            trivial
      | only day hlow hhigh =>
          have hexists : ∃ days, schedule.month.Matches (dateOf days).month ∧
              (dateOf days).day = day := by
            cases hmonthField : schedule.month with
            | every =>
                obtain ⟨days, -, hday⟩ := exists_day_of_month le_rfl (by decide) hlow
                  (hhigh : day ≤ daysInMonth 2000 1)
                exact ⟨days, trivial, hday⟩
            | only month' hlow' hhigh' =>
                rw [NoDay, hdayField, hmonthField, hweek] at h
                obtain ⟨days, hdays, hday⟩ := exists_day_of_month hlow' hhigh' hlow (not_lt.mp h)
                exact ⟨days, hdays, hday⟩
          obtain ⟨days, hdays, hday⟩ := hexists
          refine ⟨days, hdays, ?_⟩
          rw [hdayField, hweek]
          exact hday

theorem Schedule.onDay_none_iff : (∀ days, ¬ schedule.OnDay days) ↔ schedule.NoDay := by
  constructor
  · intro h
    by_contra hsome
    obtain ⟨days, hdays⟩ := exists_onDay hsome
    exact h days hdays
  · exact fun h days => h.not_onDay days

/-- A set of days that does not see the day pass is all or nothing. -/
theorem all_or_none {onDay : Nat → Prop} (h : ∀ days, onDay days ↔ onDay (days + 1)) :
    (∀ days, onDay days) ∨ ∀ days, ¬ onDay days := by
  have hfirst : ∀ days, onDay days ↔ onDay 0 := by
    intro days
    induction days with
    | zero => exact Iff.rfl
    | succ days ih => exact (h days).symm.trans ih
  by_cases hepoch : onDay 0
  · exact Or.inl fun days => (hfirst days).mpr hepoch
  · exact Or.inr fun days hdays => hepoch ((hfirst days).mp hdays)

end Days

section Shifts

variable {ahead : Nat} {earlier later : Schedule}

/-- The clock starts anew every day. -/
theorem Schedule.atClock_add (schedule : Schedule) (days t : Nat) :
    schedule.AtClock (days * 1440 + t) ↔ schedule.AtClock t := by
  have hminute : (days * 1440 + t) % 60 = t % 60 := by omega
  have hhour : (days * 1440 + t) / 60 % 24 = t / 60 % 24 := by omega
  rw [AtClock, AtClock, hminute, hhour]

theorem div_next_day {days t : Nat} (hlow : 1440 ≤ t) (hhigh : t < 2880) :
    (days * 1440 + t) / 1440 = days + 1 := by omega

theorem Precedes.of_noDay (hearlier : ∀ days, ¬ earlier.OnDay days)
    (hlater : ∀ days, ¬ later.OnDay days) : Precedes ahead earlier later :=
  fun _ => iff_of_false (fun h => hearlier _ h.2) (fun h => hlater _ h.2)

variable (hdays : ∀ days, earlier.OnDay days ↔ later.OnDay days)
include hdays

/-- The shift stays within the day. -/
theorem Precedes.of_same_day (hclock : ∀ t, earlier.AtClock t ↔ later.AtClock (t + ahead))
    (hsame : ∀ t, earlier.AtClock t → (t + ahead) / 1440 = t / 1440) :
    Precedes ahead earlier later := by
  intro t
  by_cases hat : earlier.AtClock t
  · rw [Schedule.Fires, Schedule.Fires, ← hclock t, hsame t hat, hdays]
  · exact iff_of_false (fun h => hat h.1) (fun h => hat ((hclock t).mpr h.1))

/-- **A shift over midnight** asks that the days are all or none. -/
theorem precedes_iff_of_next_day (hclock : ∀ t, earlier.AtClock t ↔ later.AtClock (t + ahead))
    (time : Nat) (htime : time < 1440) (hat : earlier.AtClock time) (hnext : 1440 ≤ time + ahead)
    (hahead : ahead ≤ 1440) :
    Precedes ahead earlier later ↔ (∀ days, later.OnDay days) ∨ ∀ days, ¬ later.OnDay days := by
  constructor
  · intro h
    apply all_or_none
    intro days
    have hhere : (days * 1440 + time) / 1440 = days := by omega
    have hthere : (days * 1440 + time + ahead) / 1440 = days + 1 := by
      rw [Nat.add_assoc, div_next_day hnext (by omega)]
    have hearlier : earlier.AtClock (days * 1440 + time) := (earlier.atClock_add days time).mpr hat
    have hlater : later.AtClock (days * 1440 + time + ahead) := (hclock _).mp hearlier
    have hshift := h (days * 1440 + time)
    rw [Schedule.Fires, Schedule.Fires, hhere, hthere, hdays] at hshift
    constructor
    · exact fun hday => (hshift.mp ⟨hearlier, hday⟩).2
    · exact fun hday => (hshift.mpr ⟨hlater, hday⟩).2
  · rintro (hall | hnone)
    · intro t
      rw [Schedule.Fires, Schedule.Fires, hclock t, hdays]
      exact and_congr_right fun _ => iff_of_true (hall _) (hall _)
    · exact .of_noDay (fun days h => hnone days ((hdays days).mp h)) hnone

/-- A clock that is wrong at one time of the day is wrong on every day that comes. -/
theorem precedes_iff_of_wrong_clock {time : Nat} (htime : time < 1440) (hat : earlier.AtClock time)
    (hwrong : ¬ later.AtClock (time + ahead)) :
    Precedes ahead earlier later ↔ ∀ days, ¬ later.OnDay days := by
  constructor
  · intro h days hday
    have hhere : (days * 1440 + time) / 1440 = days := by omega
    have hfires : earlier.Fires (days * 1440 + time) := by
      refine ⟨(earlier.atClock_add days time).mpr hat, ?_⟩
      rwa [hhere, hdays]
    have hlater := ((h _).mp hfires).1
    rw [Nat.add_assoc, later.atClock_add] at hlater
    exact hwrong hlater
  · exact fun hnone => .of_noDay (fun days h => hnone days ((hdays days).mp h)) hnone

end Shifts

end Cron
